import FluentPattern.Proofs.Compiling
import FluentPattern.Proofs.SourceReading

/-! Texts compile. A text that stands for itself is cut into its characters, so its pattern is a sequence of single
characters between the anchors, and such a sequence is within all limits. -/

namespace FluentPattern.Proofs.TextCompiling
open Regex Tokens NodeReading SourceReading

/-- A regex that is far within the limits of an automaton, whatever stands around it. -/
structure Light (mode : Mode) (piece : Regex) : Prop where
  solid : piece.isEmpty = false
  plain : piece.isPlain
  straight : piece.hasReversedBounds = false
  small : piece.hasSmallCounts
  weightless : piece.heavySize mode = 0
  shallow : ∀ surroundings, piece.depth mode surroundings ≤ 4

namespace Light

variable {pieces : List Regex} {mode : Mode}

theorem isPlain_seqAll (light : ∀ piece ∈ pieces, Light mode piece) : (seqAll pieces).isPlain := by
  unfold seqAll
  split
  next => exact (light _ List.mem_cons_self).plain
  next =>
    rw [isPlain_chain, List.all_eq_true]
    exact fun piece member => (light piece member).plain

theorem automatonFault? (light : ∀ piece ∈ pieces, Light mode piece) :
    Regex.automatonFault? mode (.capture none (seqAll pieces)) = none := by
  match pieces with
  | [] => rfl
  | [piece] =>
    have one := light piece List.mem_cons_self
    refine automatonFault?_eq_none_iff.mpr ⟨one.straight, one.small, ?_, ?_⟩
    · exact Nat.le_trans (Nat.le_of_eq one.weightless) (Nat.zero_le _)
    · exact Nat.le_trans (Nat.succ_le_succ (one.shallow .alone)) (by decide)
  | first :: second :: rest =>
    refine automatonFault?_capture_chain (List.cons_ne_nil _ _) (fun piece member => ?_) (fun piece member => ?_)
      (fun piece member => ?_) fun piece member => ?_
    · exact (light piece member).straight
    · exact (light piece member).small
    · exact (light piece member).weightless
    · exact Nat.lt_of_le_of_lt ((light piece member).shallow .piece) (by decide)

theorem depth_brackets_le (mode : Mode) (negated : Bool) (inside : CharSet) (surroundings : Surroundings) :
    (Regex.char (.brackets negated inside)).depth mode surroundings ≤ 2 := by
  simp only [depth]
  split <;> omega

theorem brackets (mode : Mode) (negated : Bool) {inside : CharSet} (plain : inside.hasShorthand = false) :
    Light mode (.char (.brackets negated inside)) := by
  refine ⟨rfl, rfl, rfl, rfl, ?_, fun surroundings => ?_⟩
  · rw [heavySize, CharSet.hasShorthand, plain, if_neg Bool.false_ne_true]
  · exact Nat.le_trans (depth_brackets_le mode negated inside surroundings) (by decide)

end Light

section Texts

variable {text : Text} {flags : FlagSet} {tokens : List Token} {branches : List (List Regex)} {pieces : List Regex}

/-- A text compiles to the branches that it gives, if no group is too deep and what is left to itself in them fits. -/
theorem exists_of_gives (cuts : Cuts .engine text tokens) (gives : Gives .engine tokens branches)
    (nonempty : branches ≠ []) (solid : Solid branches) (flat : nesting 0 tokens ≤ nestingLimit)
    (fits : ∀ part ∈ (ofLayout branches).plan.wholes, Regex.automatonFault? flags.mode part = none)
    (known : flags.error? = none) :
    ∃ pattern, Pattern.compile text flags.letters = .ok pattern ∧ pattern.regex = ofLayout branches ∧
      pattern.flags = flags := by
  refine Pattern.exists_of_read known (read_of_gives cuts gives nonempty solid) ?_
  rw [limitFault?_eq_none_iff, cuts.tokens_eq]
  exact ⟨flat, fits⟩

theorem exists_of_branches (cuts : Cuts .engine text tokens) (gives : Gives .engine tokens branches)
    (nonempty : branches ≠ []) (solid : Solid branches) (flat : nesting 0 tokens ≤ nestingLimit)
    (light : ∀ piece ∈ inSequence branches, Light flags.mode piece) (known : flags.error? = none) :
    ∃ pattern, Pattern.compile text flags.letters = .ok pattern ∧ pattern.regex = ofLayout branches ∧
      pattern.flags = flags := by
  refine exists_of_gives cuts gives nonempty solid flat ?_ known
  rw [← seqAll_inSequence branches, plan_of_isPlain (Light.isPlain_seqAll light)]
  simpa [Plan.wholes] using Light.automatonFault? light

/-- A text that is read as light pieces, without many groups in it, compiles to the sequence of them. -/
theorem exists_of_light (cuts : Cuts .engine text tokens) (gives : Gives .engine tokens [pieces])
    (flat : nesting 0 tokens ≤ nestingLimit) (light : ∀ piece ∈ pieces, Light flags.mode piece)
    (known : flags.error? = none) :
    ∃ pattern, Pattern.compile text flags.letters = .ok pattern ∧ pattern.regex = seqAll pieces ∧
      pattern.flags = flags := by
  have solid : Solid [pieces] := fun branch one piece member => (light piece (List.mem_singleton.mp one ▸ member)).solid
  exact exists_of_branches cuts gives (List.cons_ne_nil _ _) solid flat light known

end Texts

inductive Simple : Regex → Prop where
  | char (c) : Simple (.char (.single c))
  | atStart : Simple .atStart
  | atEnd : Simple .atEnd

namespace Simple

variable {piece : Regex} {pieces : List Regex}

theorem depth_le (simple : Simple piece) (mode : Mode) (surroundings : Surroundings) :
    piece.depth mode surroundings ≤ 1 := by
  cases simple with
  | char | atStart | atEnd =>
    simp only [depth]
    split <;> omega

theorem light (simple : Simple piece) (mode : Mode) : Light mode piece := by
  have shallow (surroundings : Surroundings) : piece.depth mode surroundings ≤ 4 :=
    Nat.le_trans (simple.depth_le mode surroundings) (by decide)
  cases simple with
  | char | atStart | atEnd => exact ⟨rfl, rfl, rfl, rfl, rfl, shallow⟩

/-- A sequence needs a group around it in another one or before a repetition. -/
theorem depth_seqAll_le (simple : ∀ piece ∈ pieces, Simple piece) (mode : Mode) (surroundings : Surroundings) :
    (seqAll pieces).depth mode surroundings ≤ if surroundings = .piece ∨ surroundings = .repetition then 3 else 2 := by
  have limit : 2 ≤ if surroundings = .piece ∨ surroundings = .repetition then 3 else 2 := by split <;> omega
  match pieces with
  | [] => exact Nat.zero_le _
  | [piece] =>
    have one := (simple piece List.mem_cons_self).depth_le mode surroundings
    exact Nat.le_trans one (Nat.le_trans (by decide) limit)
  | first :: second :: rest =>
    have inner := depth_chain_le mode (first :: second :: rest) fun piece member =>
      (simple piece member).depth_le mode .piece
    simp only [seqAll, chain, depth] at inner ⊢
    cases surroundings <;> simp <;> omega

theorem light_capture (simple : ∀ piece ∈ pieces, Simple piece) (name : Option Text) (mode : Mode) :
    Light mode (.capture name (seqAll pieces)) := by
  have light : ∀ piece ∈ pieces, Light mode piece := fun piece member => (simple piece member).light mode
  have shallow (surroundings : Surroundings) : (Regex.capture name (seqAll pieces)).depth mode surroundings ≤ 4 :=
    Nat.succ_le_succ (Nat.le_trans (depth_seqAll_le simple mode .alone) (by decide))
  match pieces with
  | [] => exact ⟨rfl, rfl, rfl, rfl, rfl, shallow⟩
  | [piece] =>
    have one := light piece List.mem_cons_self
    exact ⟨rfl, one.plain, one.straight, one.small, one.weightless, shallow⟩
  | first :: second :: rest =>
    refine ⟨rfl, Light.isPlain_seqAll light, ?_, ?_, ?_, shallow⟩
    · simpa [seqAll, hasReversedBounds, hasReversedBounds_chain] using fun piece member => (light piece member).straight
    · simpa [seqAll, hasSmallCounts, hasSmallCounts_chain] using fun piece member => (light piece member).small
    · exact heavySize_chain mode _ fun piece member => (light piece member).weightless

end Simple

theorem exists_of_simple {text : Text} {pieces : List Regex} (cuts : Cuts .engine text (pieces.map .item))
    (simple : ∀ piece ∈ pieces, Simple piece) {flags : FlagSet} (known : flags.error? = none) :
    ∃ pattern, Pattern.compile text flags.letters = .ok pattern ∧ pattern.regex = seqAll pieces ∧
      pattern.flags = flags := by
  refine exists_of_light cuts (.items pieces) ?_ (fun piece member => (simple piece member).light flags.mode) known
  rw [nesting_items]
  exact Nat.zero_le _

theorem source_text (front text back : Text) (flags : FlagSet) :
    Builder.source ⟨front, .literal text, back, flags⟩ = front ++ text.escapeForPattern ++ back := by
  simp [Builder.source, Node.literal, Node.isEmpty, Node.isChoice, Node.render]

theorem exists_cuts {sign anchor : Text} {piece : Regex} (simple : Simple piece)
    (item : CutsItem .engine sign [.item piece]) (known : anchor ∈ [[], sign]) :
    ∃ pieces : List Regex, Cuts .engine anchor (pieces.map .item) ∧ ∀ piece ∈ pieces, Simple piece := by
  simp only [List.mem_cons, List.not_mem_nil, or_false] at known
  rcases known with rfl | rfl
  · exact ⟨[], .nil, nofun⟩
  · exact ⟨[piece], item.cuts, by simpa using simple⟩

/-- A text compiles, with anchors at either side or without. -/
theorem compile_text {front back : Text} (start : front ∈ [[], ['^']]) (stop : back ∈ [[], ['$']]) (text : Text)
    {flags : FlagSet} (known : flags.error? = none) :
    ∃ pattern, Builder.compile ⟨front, .literal text, back, flags⟩ = .ok pattern := by
  have characters : Cuts .engine text.escapeForPattern
      ((text.collapseBackslashes.map fun c => Regex.char (.single c)).map .item) := by
    rw [List.map_map]
    exact cuts_escaped _
  obtain ⟨first, cutsFront, simpleFront⟩ := exists_cuts .atStart cutsItem_start start
  obtain ⟨last, cutsBack, simpleBack⟩ := exists_cuts .atEnd cutsItem_end stop
  have cuts := (cutsFront.append characters).append cutsBack
  rw [← List.map_append, ← List.map_append] at cuts
  have simple : ∀ piece ∈ first ++ text.collapseBackslashes.map (fun c => .char (.single c)) ++ last, Simple piece := by
    intro piece member
    simp only [List.mem_append, List.mem_map] at member
    rcases member with (member | ⟨c, -, rfl⟩) | member
    · exact simpleFront piece member
    · exact .char c
    · exact simpleBack piece member
  obtain ⟨pattern, compiles, -, -⟩ := exists_of_simple cuts simple known
  exact ⟨pattern, by rw [Builder.compile, source_text, compiles]⟩

end FluentPattern.Proofs.TextCompiling
