import FluentPattern.Proofs.FirstMatches
import FluentPattern.Proofs.TextBuilders

/-! Repetitions of texts. What is repeated is the whole word that a text stands for, however its characters are
written, so between anchors a repetition of a text matches some number of copies of the word. The number is within the
bounds that are given, in either order and counted from zero; a single bound is the least number. -/

namespace FluentPattern

def copies (count : Nat) (word : Text) : Text := (List.replicate count word).flatten

/-- Whether a number is within two bounds in either order. Of a single bound it is not below, and negative bounds are
the same as zero. -/
def WithinBounds (low high : Option Int) (count : Nat) : Prop :=
  match low, high with
  | some low, some high => max 0 (min low high) ≤ count ∧ count ≤ max 0 (max low high)
  | some bound, none | none, some bound => max 0 bound ≤ count
  | none, none => True

instance (low high : Option Int) (count : Nat) : Decidable (WithinBounds low high count) :=
  match low, high with
  | some low, some high => inferInstanceAs (Decidable (max 0 (min low high) ≤ count ∧ count ≤ max 0 (max low high)))
  | some bound, none | none, some bound => inferInstanceAs (Decidable (max 0 bound ≤ count))
  | none, none => inferInstanceAs (Decidable True)

namespace Proofs.TextRepetitions
open Regex Tokens NodeReading SourceReading TextCompiling NodeSoundness TextBuilders Words LiteralMatching FirstMatches

section Bounds

variable {low high : Option Int} {times : Repetition}

theorem withinBounds_iff (count : Nat) :
    (Repetition.ofBounds low high).bounds.least ≤ count ∧
        (∀ most ∈ (Repetition.ofBounds low high).bounds.most, count ≤ most) ↔
      WithinBounds low high count := by
  cases low with
  | none =>
    cases high with
    | none => simp [Repetition.ofBounds, Repetition.bounds, WithinBounds]
    | some high =>
      simp only [Repetition.ofBounds, Repetition.bounds, WithinBounds, Option.getD_some]
      simp
  | some low =>
    cases high with
    | none =>
      simp only [Repetition.ofBounds, Repetition.bounds, WithinBounds, Option.getD_some]
      simp
    | some high =>
      simp only [Repetition.ofBounds, Repetition.bounds, WithinBounds, Option.getD_some, Option.mem_some_iff,
        forall_eq']
      omega

theorem ofBounds_comm (low high : Option Int) : Repetition.ofBounds low high = Repetition.ofBounds high low := by
  cases low with
  | none => cases high <;> rfl
  | some low =>
    cases high with
    | none => rfl
    | some high => simp only [Repetition.ofBounds, Int.min_comm, Int.max_comm]

/-- The engine takes the greatest number that it can read for no limit. -/
theorem limit?_of_lt {count : Nat} (small : count < UInt64.size - 1) : limit? .engine count = some count := by
  refine if_neg fun greatest => ?_
  have same : UInt64.size - 1 = count := Option.some.inj greatest
  omega

theorem meant_ofBounds (small : ∀ bound ∈ low, bound < 2 ^ 63) (small' : ∀ bound ∈ high, bound < 2 ^ 63) :
    meant .engine (.ofBounds low high) = (Repetition.ofBounds low high).bounds := by
  cases low with
  | none => cases high <;> rfl
  | some low =>
    cases high with
    | none => rfl
    | some high =>
      have below := small low rfl
      have above := small' high rfl
      have fits : (max low high).toNat < UInt64.size - 1 := by
        rw [UInt64.size]
        omega
      simp only [Repetition.ofBounds, meant, Repetition.bounds, Option.bind_some, limit?_of_lt fits]

end Bounds

section Words

variable {mode : Mode} {word haystack : Text} {bounds : Bounds} {greed : Greed}

theorem mem_passes_literalRegex (caseful : mode.ignoreCase = false) {count : Nat} {cursor place : Cursor} :
    place ∈ passes ((literalRegex word).ends mode) count cursor ↔
      cursor.rest = copies count word ++ place.rest ∧ place.before = (copies count word).reverse ++ cursor.before := by
  induction count generalizing cursor with
  | zero =>
    obtain ⟨before, rest⟩ := cursor
    obtain ⟨before', rest'⟩ := place
    simp [passes, copies, and_comm, eq_comm]
  | succ count ih =>
    have copy : copies (count + 1) word = word ++ copies count word := by simp [copies, List.replicate_succ]
    simp only [passes, List.mem_flatMap, mem_ends_literalRegex caseful, ih, copy, List.append_assoc,
      List.reverse_append]
    constructor
    · rintro ⟨middle, ⟨first, passed⟩, later, passed'⟩
      exact ⟨by rw [first, later], by rw [passed', passed]⟩
    · rintro ⟨ahead, behind⟩
      exact ⟨⟨word.reverse ++ cursor.before, copies count word ++ place.rest⟩, ⟨ahead, rfl⟩, rfl, behind⟩

theorem takes_loop_literalRegex (caseful : mode.ignoreCase = false) (nonempty : word ≠ [])
    (straight : bounds.reversed = false) :
    (Regex.loop (literalRegex word) bounds greed).Takes mode haystack ↔
      ∃ count, (bounds.least ≤ count ∧ ∀ most ∈ bounds.most, count ≤ most) ∧ haystack = copies count word := by
  have reads : ∀ cursor, ∀ place ∈ (literalRegex word).ends mode cursor, place.rest.length < cursor.rest.length := by
    intro cursor place leads
    have length := List.length_pos_iff.mpr nonempty
    rw [((mem_ends_literalRegex caseful).mp leads).1, List.length_append]
    omega
  simp only [Takes, ends, mem_loopEnds reads straight, mem_passes_literalRegex caseful, Cursor.start]
  constructor
  · rintro ⟨place, ⟨count, least, most, copied, -⟩, stop⟩
    rw [stop, List.append_nil] at copied
    exact ⟨count, ⟨least, most⟩, copied⟩
  · rintro ⟨count, ⟨least, most⟩, copied⟩
    exact ⟨⟨haystack.reverse, []⟩, ⟨count, least, most, by simp [copied], by simp [copied]⟩, rfl⟩

theorem minSize_literalRegex (word : Text) : (literalRegex word).minSize = word.length := by
  induction word with
  | nil => rfl
  | cons c word ih =>
    have step : literalRegex (c :: word) = .seq (.char (.single c)) (literalRegex word) := rfl
    rw [step, minSize, ih, minSize, List.length_cons, Nat.add_comm]

end Words

section Patterns

variable {text : Text} {times : Repetition} {flags : FlagSet} {pattern : Pattern}

private theorem engine_has_times {body : Node} (textual : Textual (.repeated body times)) :
    Allowed .engine times ∧ (meant .engine times).reversed = false := by
  cases textual with
  | repeated inside allowed straight => exact ⟨allowed, straight⟩

theorem regex_of_compile (textual : Textual (.repeated (.literal text) times))
    (compiles : Builder.compile ⟨['^'], .repeated (.literal text) times, ['$'], flags⟩ = .ok pattern) :
    text.collapseBackslashes ≠ [] ∧ pattern.flags = flags ∧
      pattern.regex = chain
        [.atStart, .loop (seqAll (characters text.collapseBackslashes)) (meant .engine times) times.greed, .atEnd] := by
  have clean : Clean ⟨['^'], .repeated (.literal text) times, ['$'], flags⟩ := ⟨textual, by simp [Anchors]⟩
  have sound := sound_of_compile clean compiles
  simp only [Node.isSound, Bool.and_eq_true, decide_eq_true_eq] at sound
  obtain ⟨allowed, straight⟩ := engine_has_times textual
  have fits := (Fits.literal text).repeated sound.1 allowed straight
  have reads := Pattern.read_of_compile compiles
  rw [read_source_of_reads clean.anchors fits.reads] at reads
  refine ⟨?_, Pattern.flags_of_compile compiles, ?_⟩
  · intro none
    have weightless : (Node.literal text).weight = .nothing := by
      simp [Node.literal, Node.weight, Text.escapeForPattern, none]
    rw [weightless] at sound
    cases sound.1
  · rw [← Except.ok.inj reads]
    simp [anchored, flatten, layout, layout_literalRegex, inSequence, ofLayout, altAll, seqAll, characters]

/-- The engine refuses numbers of passes that are far below those that it can read. -/
theorem least_le_of_regex {body : Regex} {bounds : Bounds} {greed : Greed} (plain : body.isPlain)
    (regex : pattern.regex = chain [.atStart, .loop body bounds greed, .atEnd]) : bounds.least ≤ countLimit := by
  have whole : pattern.regex.isPlain := by simp [regex, isPlain_chain, isPlain, plain]
  have fits := (limitFault?_eq_none_iff.mp pattern.within_limits).2 (.capture none pattern.regex) (by
    simp [plan_of_isPlain whole, Plan.wholes])
  have small := (automatonFault?_eq_none_iff.mp fits).2.1
  simp only [regex, hasSmallCounts, hasSmallCounts_chain, List.all_cons, Bool.and_eq_true, decide_eq_true_eq] at small
  exact small.2.1.1.1

/-- A repetition of a text that compiles between anchors matches copies of its word. -/
theorem isMatch_iff_copies (textual : Textual (.repeated (.literal text) times))
    (means : meant .engine times = times.bounds) (caseful : flags.mode.ignoreCase = false)
    (single : flags.mode.multiLine = false)
    (compiles : Builder.compile ⟨['^'], .repeated (.literal text) times, ['$'], flags⟩ = .ok pattern)
    (haystack : Text) :
    pattern.isMatch haystack ↔
      ∃ count, (times.bounds.least ≤ count ∧ ∀ most ∈ times.bounds.most, count ≤ most) ∧
        haystack = copies count text.collapseBackslashes := by
  obtain ⟨nonempty, rfl, regex⟩ := regex_of_compile textual compiles
  have straight := (engine_has_times textual).2
  rw [means] at straight
  have same : Regrouped pattern.regex
      (.seq .atStart (.seq (.loop (literalRegex text.collapseBackslashes) times.bounds times.greed) .atEnd)) := by
    rw [regex, means]
    exact .seq (.refl _) (.seq (.loop (.seqAll_chain _) _ _) (.seq_empty _))
  have steady : (Regex.loop (literalRegex text.collapseBackslashes) times.bounds times.greed).isSteady := by
    simp [isSteady, isSteady_literalRegex, minSize_literalRegex, nonempty]
  rw [Pattern.isMatch_iff_takes same steady single]
  exact takes_loop_literalRegex caseful nonempty straight

/-- Whatever the bounds, a repetition of a text that compiles between anchors matches as many copies of the word that
the text stands for as the bounds say, and the order of the bounds makes no difference to what is built; where the
number of passes is given, it is the number of copies. -/
theorem repetitions_match_copies (text : Text) (low high : Option Int64) (count : UInt64) :
    let word := text.collapseBackslashes
    let low := low.map Int64.toInt
    let high := high.map Int64.toInt
    let anchors : List Builder.Step := [.assertStart true, .assertEnd true, .removeFlags ['m']]
    (∃ builder, (Builder.of (.text text)).run (.repeatBetween low high :: anchors) = .ok builder ∧
      ∀ pattern, builder.compile = .ok pattern → ∀ haystack,
        pattern.isMatch haystack ↔ ∃ number, WithinBounds low high number ∧ haystack = copies number word) ∧
    (∀ builder : Builder, builder.apply (.repeatBetween low high) = builder.apply (.repeatBetween high low)) ∧
    ∃ builder, (Builder.of (.text text)).run (.repeatExactly count.toNat :: anchors) = .ok builder ∧
      ∀ pattern, builder.compile = .ok pattern → ∀ haystack,
        pattern.isMatch haystack ↔ haystack = copies count.toNat word := by
  intro word low' high' anchors
  have caseful : (FlagSet.standard.difference ['m']).mode.ignoreCase = false := by decide
  have single : (FlagSet.standard.difference ['m']).mode.multiLine = false := by decide
  refine ⟨⟨_, rfl, fun pattern compiles haystack => ?_⟩, fun builder => ?_,
    ⟨_, rfl, fun pattern compiles haystack => ?_⟩⟩
  · have small (bound : Option Int64) : ∀ value ∈ bound.map Int64.toInt, value < 2 ^ 63 := by
      intro value member
      obtain ⟨bound, -, rfl⟩ := Option.map_eq_some_iff.mp member
      exact bound.toInt_lt
    have textual : Textual (.repeated (.literal text) (.ofBounds low' high')) :=
      (Textual.literal text).repeatedBetween (small low) (small high)
    rw [isMatch_iff_copies textual (meant_ofBounds (small low) (small high)) caseful single compiles haystack]
    simp only [withinBounds_iff]
    rfl
  · simp only [Builder.apply, Node.repeatedBetween, ofBounds_comm low' high']
  · have textual : Textual (.repeated (.literal text) (.exactly count.toNat)) :=
      (Textual.literal text).repeatedExactly count.toNat_lt
    have means : meant .engine (.exactly count.toNat) = (Repetition.exactly count.toNat).bounds := by
      obtain ⟨-, -, regex⟩ := regex_of_compile textual compiles
      have plain : (seqAll (characters word)).isPlain :=
        Light.isPlain_seqAll fun piece member => (simple_characters word piece member).light pattern.mode
      have few : count.toNat ≤ countLimit := least_le_of_regex plain regex
      have small : count.toNat < UInt64.size - 1 := few.trans_lt (by decide)
      rw [meant, limit?_of_lt small]
      rfl
    rw [isMatch_iff_copies textual means caseful single compiles haystack]
    simp only [Repetition.bounds, Option.mem_some_iff, forall_eq']
    constructor
    · rintro ⟨number, ⟨least, most⟩, rfl⟩
      rw [Nat.le_antisymm most least]
    · rintro rfl
      exact ⟨count.toNat, ⟨Nat.le_refl _, Nat.le_refl _⟩, rfl⟩

/-- Bounds in the wrong order, the lower of them negative, and a number of passes: `^(?:ab){0,2}$`, `^(?:ab){2}$`. -/
theorem repetitions_match_copies_of_reversed :
    let word : Text := ['a', 'b']
    let anchors : List Builder.Step := [.assertStart true, .assertEnd true, .removeFlags ['m']]
    (∃ builder pattern, (Builder.of (.text word)).run (.repeatBetween (some 2) (some (-1)) :: anchors) = .ok builder ∧
      builder.compile = .ok pattern ∧ pattern.isMatch [] ∧ pattern.isMatch (word ++ word) ∧
      ¬pattern.isMatch (word ++ word ++ word)) ∧
    ∃ builder pattern, (Builder.of (.text word)).run (.repeatExactly 2 :: anchors) = .ok builder ∧
      builder.compile = .ok pattern ∧ ∀ haystack, pattern.isMatch haystack ↔ haystack = word ++ word := by
  intro word anchors
  obtain ⟨⟨between, built, matching⟩, -, exact, built', matching'⟩ :=
    repetitions_match_copies word (some 2) (some (-1)) 2
  have source : between.source = ['^', '(', '?', ':', 'a', 'b', ')', '{', '0', ',', '2', '}', '$'] := by
    cases built
    rfl
  have source' : exact.source = ['^', '(', '?', ':', 'a', 'b', ')', '{', '2', '}', '$'] := by
    cases built'
    rfl
  obtain ⟨pattern, compiles⟩ : ∃ pattern, between.compile = .ok pattern := by
    rw [Builder.compile, source]
    cases built
    exact ⟨_, rfl⟩
  obtain ⟨pattern', compiles'⟩ : ∃ pattern, exact.compile = .ok pattern := by
    rw [Builder.compile, source']
    cases built'
    exact ⟨_, rfl⟩
  refine ⟨⟨between, pattern, built, compiles, ?_, ?_, ?_⟩,
    exact, pattern', built', compiles', matching' pattern' compiles'⟩
  · exact (matching pattern compiles _).mpr ⟨0, by decide, rfl⟩
  · exact (matching pattern compiles _).mpr ⟨2, by decide, rfl⟩
  · rw [matching pattern compiles]
    rintro ⟨number, few, same⟩
    have most : (number : Int) ≤ 2 := few.2
    have length : 6 = number * 2 := by simpa [copies, word, Text.collapseBackslashes] using congrArg List.length same
    omega

end Patterns

end Proofs.TextRepetitions
end FluentPattern
