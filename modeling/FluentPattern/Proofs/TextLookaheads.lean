import FluentPattern.Proofs.FirstMatches

/-! Conditions on the text ahead. A text with a condition on what follows it is found where its word stands leftmost
with the other word right behind it, or with anything else there; the match is the first word alone. A search does not
leave such a pattern to one automaton as a whole, so each part that it leaves to one has to fit. -/

namespace FluentPattern.Proofs.TextLookaheads
open Regex Tokens NodeReading TextCompiling LiteralMatching FirstMatches

section Plans

variable {mode : Mode} {pieces : List Regex} {ahead : Regex}

theorem planFor_of_isPlain {regex : Regex} (plain : regex.isPlain) (position : Position) :
    regex.planFor position true = .whole regex := by
  rw [planFor.eq_def, if_pos (by simpa using plain)]

theorem mem_wholes_chain_look (simple : ∀ piece ∈ pieces, Simple piece) (plain : ahead.isPlain) (positive : Bool)
    {position : Position} (leads : position ≠ .rest) :
    ∀ part ∈ ((chain (pieces ++ [.look positive ahead])).planFor position true).wholes,
      part ∈ pieces ∨ part = ahead ∨ part = .empty := by
  induction pieces generalizing position with
  | nil =>
    have whole : ((chain [.look positive ahead]).planFor position true).wholes = [ahead, .empty] := by
      simp [chain, planFor, isPlain, planFor_of_isPlain plain, Plan.wholes]
    intro part member
    rw [List.nil_append, whole] at member
    simpa using member
  | cons piece pieces ih =>
    obtain ⟨first, rest⟩ := List.forall_mem_cons.mp simple
    have shape : piece.isPlain ∧ piece.hasFixedSize := by
      cases first <;> exact ⟨rfl, rfl⟩
    have behind : (chain (pieces ++ [.look positive ahead])).isPlain = false := by simp [isPlain_chain, isPlain]
    have whole : ((chain (piece :: pieces ++ [.look positive ahead])).planFor position true).wholes =
        piece :: ((chain (pieces ++ [.look positive ahead])).planFor .leading true).wholes := by
      rw [List.cons_append, chain, planFor]
      simp [isPlain, shape, behind, leads, Plan.wholes]
    intro part member
    rw [whole] at member
    rcases List.mem_cons.mp member with rfl | member
    · exact .inl List.mem_cons_self
    · rcases ih rest (by decide) part member with member | other
      · exact .inl (List.mem_cons_of_mem piece member)
      · exact .inr other

theorem automatonFault?_of_capture {regex : Regex} {name : Option Text}
    (fits : automatonFault? mode (.capture name regex) = none) : automatonFault? mode regex = none := by
  rw [automatonFault?_eq_none_iff] at fits ⊢
  obtain ⟨straight, small, size, levels⟩ := fits
  exact ⟨straight, small, size, Nat.le_of_succ_le levels⟩

theorem automatonFault?_seqAll (simple : ∀ piece ∈ pieces, Simple piece) :
    automatonFault? mode (seqAll pieces) = none :=
  automatonFault?_of_capture (Light.automatonFault? fun piece member => (simple piece member).light mode)

/-- A condition that is to hold is matched as if its text belonged to the pattern, after what is matched. -/
theorem framed_chain_look (nonempty : pieces ≠ []) (positive : Bool) :
    (chain (pieces ++ [.look positive ahead])).framed =
      if positive then chain [.capture none (seqAll pieces), ahead]
      else .capture none (chain (pieces ++ [.look positive ahead])) := by
  obtain ⟨piece, rest, rfl⟩ := List.exists_cons_of_ne_nil nonempty
  have last : (chain (piece :: rest ++ [.look positive ahead])).pieces.getLast? = some (.look positive ahead) := by
    rw [pieces_chain, List.getLast?_concat]
  rw [framed, last, pieces_chain, List.dropLast_concat]
  cases positive <;> rfl

section Fits

variable {others : List Regex} (simple : ∀ piece ∈ pieces, Simple piece) (simple' : ∀ piece ∈ others, Simple piece)

include simple simple'

private theorem fits_chain_look_true :
    automatonFault? mode (chain [.capture none (seqAll pieces), seqAll others]) = none := by
  have first := Simple.light_capture simple none mode
  have second := Simple.light_capture simple' none mode
  have depth : (seqAll others).depth mode .piece ≤ 3 := Simple.depth_seqAll_le simple' mode .piece
  apply automatonFault?_of_capture
  refine automatonFault?_capture_chain (List.cons_ne_nil _ _) ?_ ?_ ?_ ?_
  all_goals simp only [List.forall_mem_cons]
  · exact ⟨first.straight, second.straight, nofun⟩
  · exact ⟨first.small, second.small, nofun⟩
  · exact ⟨first.weightless, second.weightless, nofun⟩
  · exact ⟨Nat.lt_of_le_of_lt (first.shallow .piece) (by decide), Nat.lt_of_le_of_lt depth (by decide), nofun⟩

/-- What is left to itself in a text with a condition on the text ahead fits. -/
theorem fits_look (positive : Bool) :
    ∀ part ∈ (seqAll (pieces ++ [.look positive (seqAll others)])).plan.wholes, automatonFault? mode part = none := by
  have ahead : automatonFault? mode (seqAll others) = none := automatonFault?_seqAll simple'
  have plain : (seqAll others).isPlain := Light.isPlain_seqAll fun piece member => (simple' piece member).light mode
  by_cases nonempty : pieces = []
  · subst nonempty
    have only : (Regex.look positive (seqAll others)).plan.wholes = [seqAll others] := by
      cases positive <;> simp [plan, framed, Regex.pieces, planFor, isPlain, planFor_of_isPlain plain, Plan.wholes]
    intro part member
    rw [List.nil_append, seqAll, only] at member
    rw [List.mem_singleton.mp member]
    exact ahead
  · have several : seqAll (pieces ++ [.look positive (seqAll others)]) =
        chain (pieces ++ [.look positive (seqAll others)]) := by
      obtain ⟨piece, rest, rfl⟩ := List.exists_cons_of_ne_nil nonempty
      cases rest <;> rfl
    rw [several, plan, framed_chain_look nonempty]
    cases positive with
    | false =>
      have behind : (Regex.capture none (chain (pieces ++ [.look false (seqAll others)]))).isPlain = false := by
        simp [isPlain, isPlain_chain]
      intro part member
      rw [if_neg Bool.false_ne_true, planFor, behind, Bool.and_false, if_neg Bool.false_ne_true, Plan.wholes] at member
      rcases mem_wholes_chain_look simple plain false (by decide) part member with member | rfl | rfl
      · exact automatonFault?_seqAll (List.forall_mem_singleton.mpr (simple part member))
      · exact ahead
      · rfl
    | true =>
      have first : (seqAll pieces).isPlain := Light.isPlain_seqAll fun piece member => (simple piece member).light mode
      have whole : (chain [.capture none (seqAll pieces), seqAll others]).isPlain := by
        simp [chain, isPlain, first, plain]
      rw [if_pos rfl, planFor_of_isPlain whole, Plan.wholes, List.forall_mem_singleton]
      exact fits_chain_look_true simple simple'

end Fits

end Plans

section Words

variable {mode : Mode} {word next haystack : Text} {positive : Bool}

def lookRegex (word next : Text) (positive : Bool) : Regex :=
  .seq (literalRegex word) (.look positive (literalRegex next))

theorem mem_ends_lookRegex (caseful : mode.ignoreCase = false) {cursor place : Cursor} :
    place ∈ (lookRegex word next positive).ends mode cursor ↔
      place ∈ (literalRegex word).ends mode cursor ∧ (next <+: place.rest ↔ positive) := by
  have ahead (middle : Cursor) : ((literalRegex next).ends mode middle).isEmpty = !decide (next <+: middle.rest) := by
    rw [ends_literalRegex caseful]
    split <;> simp_all
  simp only [lookRegex, ends, List.mem_flatMap, ahead]
  constructor
  · rintro ⟨middle, leads, here⟩
    split at here
    · cases here
    · obtain rfl := List.mem_singleton.mp here
      refine ⟨leads, ?_⟩
      cases positive <;> simp_all
  · rintro ⟨leads, condition⟩
    refine ⟨place, leads, ?_⟩
    cases positive <;> simp_all

theorem canMatch_lookRegex (caseful : mode.ignoreCase = false) {m : Match} :
    CanMatch (lookRegex word next positive) mode haystack m ↔
      Occurs word haystack m ∧ (next <+: m.stop.rest ↔ positive) := by
  rw [← canMatch_literalRegex caseful]
  constructor
  · rintro ⟨within, leads⟩
    obtain ⟨leads, condition⟩ := (mem_ends_lookRegex caseful).mp leads
    exact ⟨⟨within, leads⟩, condition⟩
  · rintro ⟨⟨within, leads⟩, condition⟩
    exact ⟨within, (mem_ends_lookRegex caseful).mpr ⟨leads, condition⟩⟩

/-- A word and a condition leave no choice of where to stop. -/
theorem head?_ends_lookRegex (caseful : mode.ignoreCase = false) {cursor place : Cursor}
    (leads : place ∈ (lookRegex word next positive).ends mode cursor) :
    ((lookRegex word next positive).ends mode cursor).head? = some place := by
  have few : ((lookRegex word next positive).ends mode cursor).length ≤ 1 := by
    rw [lookRegex, ends, ends_literalRegex caseful]
    split
    · rw [List.flatMap_singleton, ends]
      split <;> simp
    · exact Nat.zero_le 1
  obtain ⟨front, back, whole⟩ := List.append_of_mem leads
  rw [whole, List.length_append, List.length_cons] at few
  have first : front = [] := List.length_eq_zero_iff.mp (by omega)
  rw [whole, first]
  rfl

theorem find?_of_lookRegex {pattern : Pattern} (same : Regrouped pattern.regex (lookRegex word next positive))
    (caseful : pattern.mode.ignoreCase = false) (haystack : Text) :
    (pattern.find? haystack = none ↔ ∀ m, Occurs word haystack m → ¬(next <+: m.stop.rest ↔ positive)) ∧
      ∀ m, pattern.find? haystack = some m ↔
        StartsFirst (fun m => Occurs word haystack m ∧ (next <+: m.stop.rest ↔ positive)) m := by
  have steady : (lookRegex word next positive).isSteady := by simp [lookRegex, isSteady, isSteady_literalRegex]
  have candidates (m : Match) : CanMatch (lookRegex word next positive) pattern.mode haystack m ↔
      Occurs word haystack m ∧ (next <+: m.stop.rest ↔ positive) :=
    canMatch_lookRegex caseful
  constructor
  · rw [Pattern.find?_eq_none_iff same steady]
    simp only [candidates, not_and]
  · intro m
    rw [Pattern.find?_eq_some_iff same steady, startsFirst_congr candidates]
    refine and_iff_left_of_imp fun first => ?_
    exact head?_ends_lookRegex caseful ((candidates m).mpr first.isCandidate).leads

end Words

section Patterns

variable {flags : FlagSet}

theorem exists_look (text ahead : Text) (positive : Bool) (known : flags.error? = none) :
    ∃ pattern,
      Builder.compile ⟨[], .lookahead (.literal text) (.literal ahead) positive, [], flags⟩ = .ok pattern ∧
      Regrouped pattern.regex (lookRegex text.collapseBackslashes ahead.collapseBackslashes positive) ∧
      pattern.flags = flags := by
  have cuts := (cuts_characters text).append ((opens_ahead positive).cutsItem (cuts_characters ahead)).cuts
  generalize text.collapseBackslashes = word at cuts ⊢
  generalize ahead.collapseBackslashes = next at cuts ⊢
  have inside : Gives .engine ((characters next).map .item) (literalRegex next).layout := by
    rw [layout_literalRegex]
    exact .items _
  have gives := (Gives.items (characters word)).append (inside.group (.look positive))
  have condition : (Opening.look positive).close (literalRegex next).flatten =
      .look positive (seqAll (characters next)) := by
    rw [flatten, layout_literalRegex]
    rfl
  rw [condition] at gives
  have solid : Solid [characters word ++ [.look positive (seqAll (characters next))]] := by
    intro branch one
    rw [List.mem_singleton.mp one, List.forall_mem_append, List.forall_mem_singleton]
    exact ⟨fun piece member => ((simple_characters word piece member).light flags.mode).solid, rfl⟩
  have flat : nesting 0 ((characters word).map .item ++
      ([.opening (.look positive)] ++ (characters next).map .item ++ [.closing])) ≤ nestingLimit := by
    simp only [nesting_items_append, List.cons_append, List.nil_append, nesting]
    decide
  have fits : ∀ part ∈ (ofLayout [characters word ++ [.look positive (seqAll (characters next))]]).plan.wholes,
      automatonFault? flags.mode part = none :=
    fits_look (simple_characters word) (simple_characters next) positive
  obtain ⟨pattern, compiles, regex, same⟩ := exists_of_gives cuts gives (List.cons_ne_nil _ _) solid flat fits known
  refine ⟨pattern, ?_, ?_, same⟩
  · rw [← compiles]
    simp [Builder.compile, Builder.source, Builder.isAnchored, Node.literal, Node.isEmpty, Node.isChoice, Node.render]
  · rw [regex]
    refine .trans (.seqAll_chain _) (.trans (.chain_append _ _) (.seq (.refl _) ?_))
    exact .trans (.seq_empty _) (.look positive (.seqAll_chain _))

/-- A text that is to be followed by another one is found as the leftmost of the places where its word stands with the
other word right behind it, and one that is not to be as the leftmost of those with something else there. What is behind
the word is no part of the match. -/
theorem find?_with_condition_ahead (text ahead : Text) :
    let word := text.collapseBackslashes
    let next := ahead.collapseBackslashes
    (∃ builder pattern, (Builder.of (.text text)).apply (.followedBy (.text ahead)) = .ok builder ∧
      builder.compile = .ok pattern ∧ ∀ haystack,
        (pattern.find? haystack = none ↔ ∀ m, Occurs word haystack m → ¬next <+: m.stop.rest) ∧
        ∀ m, pattern.find? haystack = some m ↔
          StartsFirst (fun m => Occurs word haystack m ∧ next <+: m.stop.rest) m) ∧
    ∃ builder pattern, (Builder.of (.text text)).apply (.notFollowedBy (.text ahead)) = .ok builder ∧
      builder.compile = .ok pattern ∧ ∀ haystack,
        (pattern.find? haystack = none ↔ ∀ m, Occurs word haystack m → next <+: m.stop.rest) ∧
        ∀ m, pattern.find? haystack = some m ↔
          StartsFirst (fun m => Occurs word haystack m ∧ ¬next <+: m.stop.rest) m := by
  intro word next
  have known : FlagSet.standard.error? = none := by decide
  have caseful : FlagSet.standard.mode.ignoreCase = false := by decide
  constructor
  · obtain ⟨pattern, compiles, same, flags⟩ := exists_look text ahead true known
    rw [← flags] at caseful
    exact ⟨_, pattern, rfl, compiles, fun haystack => by simpa using find?_of_lookRegex same caseful haystack⟩
  · obtain ⟨pattern, compiles, same, flags⟩ := exists_look text ahead false known
    rw [← flags] at caseful
    exact ⟨_, pattern, rfl, compiles, fun haystack => by simpa using find?_of_lookRegex same caseful haystack⟩

end Patterns

end FluentPattern.Proofs.TextLookaheads
