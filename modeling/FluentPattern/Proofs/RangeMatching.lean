import FluentPattern.Proofs.ClassMatching
import FluentPattern.Proofs.TextBuilders

/-! The steps that take a list of ranges stand for the union of these ranges. The ends of a range are escaped one by
one, a hyphen is put between them, and the ranges follow each other without anything between them; whatever the ends
are, the text is read as the ranges that were given, or refused if one of them goes down. -/

namespace FluentPattern.Proofs.RangeMatching
open Regex Tokens ClassTokens NodeReading SourceReading Searching TextCompiling NodeSoundness TextBuilders Builder

def bounds (pairs : List (Char × Char)) : List (Text × Text) := pairs.map fun pair => ([pair.1], [pair.2])

def rangeSet (pairs : List (Char × Char)) (negated : Bool) : CharSet :=
  .brackets negated (unionAll (pairs.map fun pair => .range pair.1 pair.2))

section Sets

variable (pairs : List (Char × Char)) (negated : Bool)

theorem contains_rangeSet {mode : Mode} (caseful : mode.ignoreCase = false) (c : Char) :
    (rangeSet pairs negated).contains mode c ↔
      if negated then ∀ pair ∈ pairs, ¬(pair.1 ≤ c ∧ c ≤ pair.2) else ∃ pair ∈ pairs, pair.1 ≤ c ∧ c ≤ pair.2 := by
  have inside : (unionAll (pairs.map fun pair => .range pair.1 pair.2)).holds mode c =
      decide (∃ pair ∈ pairs, pair.1 ≤ c ∧ c ≤ pair.2) := by
    rw [any_unionAll (CharSet.holds mode · c) rfl fun _ _ => rfl, Bool.eq_iff_iff]
    simp [CharSet.holds]
  simp only [CharSet.contains_of_not_ignoreCase caseful, rangeSet, CharSet.holds, Mode.passes, caseful,
    Bool.false_eq_true, if_false, inside]
  cases negated <;> simp

theorem light_rangeSet (mode : Mode) : Light mode (.char (rangeSet pairs negated)) := by
  apply Light.brackets
  rw [any_unionAll CharSet.hasShorthand rfl fun _ _ => rfl]
  simp [CharSet.hasShorthand]

theorem isSound_ranges (nonempty : pairs ≠ []) :
    (Node.ranges .empty (bounds pairs) negated).isSound ↔ ∀ pair ∈ pairs, pair.1 ≤ pair.2 := by
  have writes := writes_ranges pairs
  have text : (pairs.map fun pair => ClassPart.range (Text.escapeForClass [pair.1]) (Text.escapeForClass [pair.2])).flatMap
      ClassPart.render ≠ [] := by
    obtain ⟨pair, pairs, rfl⟩ := List.exists_cons_of_ne_nil nonempty
    simp [ClassPart.render]
  have ordered := writes.ordered
  simp only [List.forall_mem_map, Member.Ordered] at ordered
  simpa [Node.ranges, Node.append, Node.isSound, bounds, Function.comp_def, text] using ordered

end Sets

section Patterns

variable {pairs : List (Char × Char)} {negated : Bool} {builder : Builder}

private theorem exists_pattern (nonempty : pairs ≠ []) (ordered : ∀ pair ∈ pairs, pair.1 ≤ pair.2)
    (anchors : Anchors builder) (node : builder.node = .ranges .empty (bounds pairs) negated)
    (known : builder.flags.error? = none) : ∃ pattern, builder.compile = .ok pattern := by
  obtain ⟨first, cutsFront, simpleFront⟩ := exists_cuts .atStart cutsItem_start anchors.1
  obtain ⟨last, cutsBack, simpleBack⟩ := exists_cuts .atEnd cutsItem_end anchors.2
  have middle : CutsItem .engine (Node.ranges .empty (bounds pairs) negated).render
      ([.char (rangeSet pairs negated)].map .item) := cutsItem_ranges nonempty ordered negated
  have cuts := (cutsFront.append middle.cuts).append cutsBack
  rw [← List.map_append, ← List.map_append] at cuts
  have source : builder.source = builder.front ++ (Node.ranges .empty (bounds pairs) negated).render ++ builder.back := by
    simp [Builder.source, node, Node.ranges, Node.append, Node.isEmpty, Node.isChoice]
  rw [← source] at cuts
  have light : ∀ piece ∈ first ++ [.char (rangeSet pairs negated)] ++ last, Light builder.flags.mode piece := by
    intro piece member
    simp only [List.mem_append, List.mem_singleton] at member
    rcases member with (member | rfl) | member
    · exact (simpleFront piece member).light _
    · exact light_rangeSet pairs negated _
    · exact (simpleBack piece member).light _
  obtain ⟨pattern, compiles, -, -⟩ :=
    exists_of_light cuts (.items _) ((nesting_items 0 _).le.trans (Nat.zero_le _)) light known
  exact ⟨pattern, compiles⟩

private theorem leftmost_anchored {mode : Mode} (front back : Text) (set : CharSet) (c : Char) :
    leftmost ((anchored front back (.char set)).ends mode) [] [c] =
      if set.contains mode c then some ⟨.start [c], ⟨[c], []⟩⟩ else none := by
  have before : (if front = [] then Regex.empty else .atStart).ends mode ⟨[], [c]⟩ = [⟨[], [c]⟩] := by
    split <;> rfl
  have behind : (if back = [] then Regex.empty else .atEnd).ends mode ⟨[c], []⟩ = [⟨[c], []⟩] := by
    split <;> rfl
  have here : (anchored front back (.char set)).ends mode ⟨[], [c]⟩ =
      if set.contains mode c then [⟨[c], []⟩] else [] := by
    rw [anchored, ends, before, List.flatMap_singleton, ends, ends]
    by_cases present : set.contains mode c
    · rw [if_pos present, List.flatMap_singleton, behind]
    · rw [if_neg present, List.flatMap_nil]
  have past : (anchored front back (.char set)).ends mode ⟨[c], []⟩ = [] := by
    rw [anchored, ends, List.flatMap_eq_nil_iff]
    intro place member
    obtain ⟨-, short⟩ := forward_ends mode _ _ place member
    obtain ⟨before, rest⟩ := place
    obtain rfl : rest = [] := List.eq_nil_of_length_eq_zero (Nat.le_zero.mp short)
    rfl
  simp only [leftmost, here, past]
  split <;> rfl

private theorem find?_singleton (nonempty : pairs ≠ []) (ordered : ∀ pair ∈ pairs, pair.1 ≤ pair.2)
    (anchors : Anchors builder) (node : builder.node = .ranges .empty (bounds pairs) negated) {pattern : Pattern}
    (compiles : builder.compile = .ok pattern) (c : Char) :
    pattern.find? [c] =
      if (rangeSet pairs negated).contains pattern.mode c then some ⟨.start [c], ⟨[c], []⟩⟩ else none := by
  have inside : Reads .engine builder.node (.char (rangeSet pairs negated)) :=
    node ▸ Reads.ranges nonempty ordered negated
  have reads := read_source_of_reads anchors inside
  rw [Pattern.read_of_compile compiles] at reads
  have same : Regrouped pattern.regex (anchored builder.front builder.back (.char (rangeSet pairs negated))) := by
    rw [Except.ok.inj reads]
    exact regrouped_flatten _
  have steady : pattern.regex.isSteady := by
    rw [same.isSteady_eq, anchored]
    split <;> split <;> rfl
  rw [Pattern.find?_eq_leftmost steady, same.ends_eq, leftmost_anchored]

private theorem wellFormed_of_isSetting {step : Step} (setting : step.isSetting) : step.WellFormed := by
  cases step with
  | ranges | flatRanges | repeatBetween | repeatExactly | capture => simp [Step.isSetting] at setting
  | _ => trivial

private theorem value?_of_isSetting {step : Step} (setting : step.isSetting) : step.value? = none := by
  cases step with
  | append | maybe | orElse | followedBy | notFollowedBy => simp [Step.isSetting] at setting
  | _ => rfl

private theorem clean_of_only {steps : List Step} (only : steps.filter (!·.isSetting) = [.ranges (bounds pairs) negated])
    (ran : Builder.empty.run steps = .ok builder) : Clean builder := by
  have kinds : ∀ step ∈ steps, step.isSetting ∨ step = .ranges (bounds pairs) negated := by
    intro step member
    cases kind : step.isSetting with
    | true => exact .inl rfl
    | false => exact .inr (StepRuns.eq_of_only only member kind)
  refine Clean.run Made.empty.clean (fun step member => ?_) (fun step member value takes => ?_) ran
  · rcases kinds step member with setting | rfl
    · exact wellFormed_of_isSetting setting
    · intro pair member
      obtain ⟨⟨first, last⟩, -, rfl⟩ := List.mem_map.mp member
      exact ⟨first, last, rfl⟩
  · rcases kinds step member with setting | rfl
    · simp [value?_of_isSetting setting] at takes
    · simp [Step.value?] at takes

/-- Whatever anchors and flags are set before or after it, a step that takes ranges compiles if none of them goes down
and only then. If case counts, the pattern takes a character if it is in one of the ranges or, with the sign for all
others, if it is in none. -/
theorem range_steps_match (nonempty : pairs ≠ []) {steps : List Step}
    (only : steps.filter (!·.isSetting) = [.ranges (bounds pairs) negated]) :
    ∃ builder, Builder.empty.run steps = .ok builder ∧
      (builder.flags.error? = none → builder.flags.contains 'i' = false →
        ((∃ pattern, builder.compile = .ok pattern) ↔ ∀ pair ∈ pairs, pair.1 ≤ pair.2) ∧
        ∀ pattern, builder.compile = .ok pattern → ∀ c,
          (pattern.find? [c] = some ⟨.start [c], ⟨[c], []⟩⟩ ↔
            if negated then ∀ pair ∈ pairs, ¬(pair.1 ≤ c ∧ c ≤ pair.2)
            else ∃ pair ∈ pairs, pair.1 ≤ c ∧ c ≤ pair.2)) := by
  have taken : Builder.empty.apply (.ranges (bounds pairs) negated) =
      .ok (Builder.empty.mapNode (·.ranges (bounds pairs) negated)) := rfl
  obtain ⟨builder, ran, node⟩ := StepRuns.exists_run_of_only only taken
  have node : builder.node = .ranges .empty (bounds pairs) negated := node
  have clean : Clean builder := clean_of_only only ran
  have ordered {pattern : Pattern} (compiles : builder.compile = .ok pattern) : ∀ pair ∈ pairs, pair.1 ≤ pair.2 := by
    rw [← isSound_ranges pairs negated nonempty, ← node]
    exact sound_of_compile clean compiles
  refine ⟨builder, ran, fun known caseful => ⟨⟨?_, fun inOrder => ?_⟩, fun pattern compiles c => ?_⟩⟩
  · rintro ⟨pattern, compiles⟩
    exact ordered compiles
  · exact exists_pattern nonempty inOrder clean.anchors node known
  · have mode : pattern.mode.ignoreCase = false := by
      rw [Pattern.mode, Pattern.flags_of_compile compiles]
      exact caseful
    rw [find?_singleton nonempty (ordered compiles) clean.anchors node compiles,
      ← contains_rangeSet pairs negated mode]
    split <;> simp_all

/-- Ranges that end in a hyphen and begin with a backslash, with a closing bracket between the ends: `[^+-\-\\-\^]`. -/
theorem range_steps_match_of_signs :
    let pairs := [('+', '-'), ('\\', '^')]
    let steps := [Step.addFlags ['s'], .ranges (bounds pairs) true]
    pairs ≠ [] ∧ steps.filter (!·.isSetting) = [.ranges (bounds pairs) true] ∧
      ∃ builder pattern, Builder.empty.run steps = .ok builder ∧ builder.compile = .ok pattern ∧
        pattern.find? ['['] = some ⟨.start ['['], ⟨['['], []⟩⟩ ∧
        pattern.find? [']'] ≠ some ⟨.start [']'], ⟨[']'], []⟩⟩ := by
  intro pairs steps
  have nonempty : pairs ≠ [] := by decide
  have only : steps.filter (!·.isSetting) = [.ranges (bounds pairs) true] := rfl
  obtain ⟨builder, ran, matching⟩ := range_steps_match nonempty only
  have flags : builder.flags = FlagSet.standard.union ['s'] := by
    obtain rfl := Except.ok.inj ran
    rfl
  obtain ⟨compiles, takes⟩ := matching (flags ▸ by decide) (flags ▸ by decide)
  obtain ⟨pattern, compiled⟩ := compiles.mpr (by decide)
  refine ⟨nonempty, only, builder, pattern, ran, compiled, ?_, ?_⟩
  · exact (takes pattern compiled '[').mpr (by decide)
  · exact mt (takes pattern compiled ']').mp (by decide)

end Patterns

end FluentPattern.Proofs.RangeMatching
