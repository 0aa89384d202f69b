import FluentPattern.Proofs.FirstMatches
import FluentPattern.Proofs.StepRuns

/-! Texts with a gap between them. A gap is any stretch within a line. The places where it can stop come up in the order
in which a lazy repetition tries them, the nearest first, or in the opposite order of a greedy one; so of all ways to go
on with the text behind the gap, a search takes the one that stops first or the one that stops last. -/

namespace FluentPattern

/-- Whether of two places a repetition comes to the first one no later than to the second. -/
def Greed.Prefers (greed : Greed) (first second : Cursor) : Prop :=
  match greed with
  | .lazy => first.offset ≤ second.offset
  | .greedy => second.offset ≤ first.offset

/-- Whether a match is a word, a stretch without line feeds and another word. -/
def Gapped (word last haystack : Text) (m : Match) : Prop :=
  ∃ gap : Text, '\n' ∉ gap ∧ Occurs (word ++ gap ++ last) haystack m

namespace Proofs.TextGaps
open Regex Tokens NodeReading TextCompiling Words LiteralMatching FirstMatches

section Order

variable {mode : Mode} {greed : Greed} {set : CharSet} {cursor place : Cursor} {places : List Cursor}

theorem prefers_refl (greed : Greed) (cursor : Cursor) : greed.Prefers cursor cursor := by
  cases greed <;> exact Nat.le_refl _

theorem prefers_of_head? (ordered : places.Pairwise greed.Prefers) (first : places.head? = some cursor)
    (member : place ∈ places) : greed.Prefers cursor place := by
  obtain ⟨rest, rfl⟩ := List.head?_eq_some_iff.mp first
  rcases List.mem_cons.mp member with rfl | later
  · exact prefers_refl greed _
  · exact (List.pairwise_cons.mp ordered).1 place later

theorem reaches_of_mem_upTo_char {count : Nat} (member : place ∈ upTo greed ((Regex.char set).ends mode) count cursor) :
    cursor.Reaches place := by
  obtain ⟨number, -, passes⟩ := mem_upTo.mp member
  obtain ⟨read, -, -, rest, before⟩ := mem_passes_char.mp passes
  exact ⟨read, rest, before⟩

theorem pairwise_upTo_char (count : Nat) (cursor : Cursor) :
    (upTo greed ((Regex.char set).ends mode) count cursor).Pairwise greed.Prefers := by
  induction count generalizing cursor with
  | zero => exact List.pairwise_singleton ..
  | succ count ih =>
    have further : (((Regex.char set).ends mode cursor).flatMap
        (upTo greed ((Regex.char set).ends mode) count)).Pairwise greed.Prefers := by
      obtain ⟨before, _ | ⟨c, rest⟩⟩ := cursor
      · exact .nil
      · rw [ends]
        split
        · simpa using ih _
        · exact .nil
    have beyond : ∀ place ∈ ((Regex.char set).ends mode cursor).flatMap
        (upTo greed ((Regex.char set).ends mode) count), cursor.offset ≤ place.offset := by
      intro place member
      have inside : place ∈ upTo greed ((Regex.char set).ends mode) (count + 1) cursor :=
        mem_upTo_succ.mpr (.inl member)
      exact (reaches_of_mem_upTo_char inside).offset_le
    cases greed with
    | greedy =>
      rw [upTo, List.pairwise_append]
      refine ⟨further, List.pairwise_singleton .., fun place member last same => ?_⟩
      rw [List.mem_singleton.mp same]
      exact beyond place member
    | lazy => exact List.pairwise_cons.mpr ⟨beyond, further⟩

end Order

section Gap

variable {mode : Mode} {word last haystack : Text} {greed : Greed}

def gapRegex (greed : Greed) : Regex := .loop (.char .anyCharacter) ⟨0, none⟩ greed

def gappedRegex (word last : Text) (greed : Greed) : Regex :=
  .seq (literalRegex word) (.seq (gapRegex greed) (literalRegex last))

theorem contains_anyCharacter (caseful : mode.ignoreCase = false) (lines : mode.dotAll = false) (c : Char) :
    CharSet.anyCharacter.contains mode c ↔ c ≠ '\n' := by
  rw [CharSet.contains_of_not_ignoreCase caseful, CharSet.holds, lines]
  simp

theorem mem_ends_gapRegex (caseful : mode.ignoreCase = false) (lines : mode.dotAll = false) {cursor place : Cursor} :
    place ∈ (gapRegex greed).ends mode cursor ↔
      ∃ gap : Text, '\n' ∉ gap ∧ cursor.rest = gap ++ place.rest ∧ place.before = gap.reverse ++ cursor.before := by
  have straight : Bounds.reversed ⟨0, none⟩ = false := rfl
  simp only [gapRegex, ends, mem_loopEnds char_reads straight, mem_passes_char, contains_anyCharacter caseful lines]
  constructor
  · rintro ⟨_, -, -, gap, -, inLine, rest, before⟩
    exact ⟨gap, fun member => inLine _ member rfl, rest, before⟩
  · rintro ⟨gap, inLine, rest, before⟩
    exact ⟨gap.length, Nat.zero_le _, by simp, gap, rfl, fun c member same => inLine (same ▸ member), rest, before⟩

theorem pairwise_ends_gapRegex (cursor : Cursor) : ((gapRegex greed).ends mode cursor).Pairwise greed.Prefers := by
  have whole : (gapRegex greed).ends mode cursor =
      upTo greed ((Regex.char .anyCharacter).ends mode) cursor.rest.length cursor := by
    simp [gapRegex, ends, loopEnds, passes, reading_eq_self char_reads]
  rw [whole]
  exact pairwise_upTo_char _ cursor

theorem canMatch_gappedRegex (caseful : mode.ignoreCase = false) (lines : mode.dotAll = false) {m : Match} :
    CanMatch (gappedRegex word last greed) mode haystack m ↔ Gapped word last haystack m := by
  constructor
  · rintro ⟨within, leads⟩
    obtain ⟨middle, first, leads⟩ := List.mem_flatMap.mp leads
    obtain ⟨place, gap, leads⟩ := List.mem_flatMap.mp leads
    obtain ⟨ahead, behind⟩ := (mem_ends_literalRegex caseful).mp first
    obtain ⟨gap, inLine, ahead', behind'⟩ := (mem_ends_gapRegex caseful lines).mp gap
    obtain ⟨ahead'', behind''⟩ := (mem_ends_literalRegex caseful).mp leads
    exact ⟨gap, inLine, within, by simp [ahead, ahead', ahead''], by simp [behind, behind', behind'']⟩
  · rintro ⟨gap, inLine, within, ahead, behind⟩
    simp only [List.append_assoc, List.reverse_append] at ahead behind
    refine ⟨within, List.mem_flatMap.mpr ⟨⟨word.reverse ++ m.start.before, gap ++ (last ++ m.stop.rest)⟩, ?_, ?_⟩⟩
    · exact (mem_ends_literalRegex caseful).mpr ⟨ahead, rfl⟩
    · refine List.mem_flatMap.mpr ⟨⟨gap.reverse ++ (word.reverse ++ m.start.before), last ++ m.stop.rest⟩, ?_, ?_⟩
      · exact (mem_ends_gapRegex caseful lines).mpr ⟨gap, inLine, rfl, rfl⟩
      · exact (mem_ends_literalRegex caseful).mpr ⟨rfl, behind⟩

/-- Only the gap leaves a choice, and a word behind it moves all the places where it stops by the same number of
bytes. -/
theorem pairwise_ends_gappedRegex (caseful : mode.ignoreCase = false) (cursor : Cursor) :
    ((gappedRegex word last greed).ends mode cursor).Pairwise greed.Prefers := by
  have alone (word : Text) (cursor : Cursor) (related : Cursor → Cursor → Prop) :
      ((literalRegex word).ends mode cursor).Pairwise related := by
    rw [ends_literalRegex caseful]
    split
    · exact List.pairwise_singleton ..
    · exact .nil
  have behind (cursor : Cursor) : ∀ place ∈ (literalRegex last).ends mode cursor,
      place.offset = last.utf8Size + cursor.offset := by
    intro place leads
    obtain ⟨-, before⟩ := (mem_ends_literalRegex caseful).mp leads
    rw [Cursor.offset, before, Text.utf8Size_append, Text.utf8Size_reverse, Cursor.offset]
  rw [gappedRegex, ends, ends_literalRegex caseful]
  split
  · rw [List.flatMap_singleton, ends, List.pairwise_flatMap]
    refine ⟨fun place _ => alone last place _, (pairwise_ends_gapRegex _).imp ?_⟩
    intro first second order place member place' member'
    have offset := behind first place member
    have offset' := behind second place' member'
    cases greed with
    | greedy =>
      have order : second.offset ≤ first.offset := order
      show place'.offset ≤ place.offset
      omega
    | lazy =>
      have order : first.offset ≤ second.offset := order
      show place.offset ≤ place'.offset
      omega
  · exact .nil

theorem head?_ends_gappedRegex (caseful : mode.ignoreCase = false) (lines : mode.dotAll = false) {m : Match}
    (gapped : Gapped word last haystack m) :
    ((gappedRegex word last greed).ends mode m.start).head? = some m.stop ↔
      ∀ other, Gapped word last haystack other → other.start = m.start → greed.Prefers m.stop other.stop := by
  have candidates (m : Match) :
      CanMatch (gappedRegex word last greed) mode haystack m ↔ Gapped word last haystack m :=
    canMatch_gappedRegex caseful lines
  have ordered : ((gappedRegex word last greed).ends mode m.start).Pairwise greed.Prefers :=
    pairwise_ends_gappedRegex caseful m.start
  have leads := ((candidates m).mpr gapped).leads
  constructor
  · intro first other gapped' start
    have leads' := ((candidates other).mpr gapped').leads
    rw [start] at leads'
    exact prefers_of_head? ordered first leads'
  · intro preferred
    cases first : ((gappedRegex word last greed).ends mode m.start).head? with
    | none =>
      rw [List.head?_eq_none_iff] at first
      exact absurd first (List.ne_nil_of_mem leads)
    | some place =>
      have reached := List.mem_of_mem_head? first
      obtain ⟨_, -, within, -, -⟩ := gapped
      have one := prefers_of_head? ordered first leads
      have other := preferred ⟨m.start, place⟩ ((candidates _).mp ⟨within, reached⟩) rfl
      have texts : place.text = m.stop.text :=
        (forward_ends mode _ _ _ reached).1.trans (forward_ends mode _ _ _ leads).1.symm
      have same : place.offset = m.stop.offset := by
        cases greed with
        | greedy => exact Nat.le_antisymm other one
        | lazy => exact Nat.le_antisymm one other
      rw [Cursor.eq_of_offset texts same]

end Gap

section Patterns

variable {text next : Text} {flags : FlagSet}

private theorem light_gapRegex (mode : Mode) (greed : Greed) : Light mode (gapRegex greed) := by
  refine ⟨rfl, rfl, rfl, rfl, rfl, fun surroundings => ?_⟩
  simp only [gapRegex, depth]
  split <;> split <;> omega

/-- A gap between two texts compiles to the gap between their words. -/
theorem exists_gapped (text next : Text) (isLazy : Bool) (known : flags.error? = none) :
    ∃ pattern,
      Builder.compile ⟨[], ((Node.literal text).anything isLazy).append (.literal next), [], flags⟩ = .ok pattern ∧
      Regrouped pattern.regex (gappedRegex text.collapseBackslashes next.collapseBackslashes (.ofLazy isLazy)) ∧
      pattern.flags = flags := by
  have times : Allowed .engine (.zeroOrMore (.ofLazy isLazy)) := trivial
  have cuts := ((cuts_characters text).append (cutsItem_dot.times times)).append (cuts_characters next)
  generalize text.collapseBackslashes = word at cuts ⊢
  generalize next.collapseBackslashes = last at cuts ⊢
  have gap : Gives .engine [.item (.char .anyCharacter), .times ⟨0, none⟩ (.ofLazy isLazy)]
      [[gapRegex (.ofLazy isLazy)]] :=
    (Gives.items [.char .anyCharacter]).times rfl ⟨0, none⟩ (.ofLazy isLazy)
  have gives := ((Gives.items (characters word)).append gap).append (Gives.items (characters last))
  have flat : nesting 0 ((characters word).map .item ++
      [.item (.char .anyCharacter), .times ⟨0, none⟩ (.ofLazy isLazy)] ++
        (characters last).map .item) ≤ nestingLimit := by
    rw [List.append_assoc, nesting_items_append]
    simp only [List.cons_append, List.nil_append, nesting, nesting_items]
    exact Nat.zero_le _
  have light : ∀ piece ∈ characters word ++ [gapRegex (.ofLazy isLazy)] ++ characters last, Light flags.mode piece := by
    simp only [List.forall_mem_append, List.forall_mem_singleton]
    exact ⟨⟨fun piece member => (simple_characters word piece member).light _, light_gapRegex _ _⟩,
      fun piece member => (simple_characters last piece member).light _⟩
  obtain ⟨pattern, compiles, regex, same⟩ := exists_of_light cuts gives flat light known
  refine ⟨pattern, ?_, ?_, same⟩
  · rw [← compiles]
    simp [Builder.compile, Builder.source, Builder.isAnchored, Node.anything, Node.append, Node.literal, Node.isEmpty,
      Node.isChoice, Node.render, Node.isItem, Node.anyCharacter]
  · rw [regex]
    refine .trans (.seqAll_chain _) (.trans (.chain_append _ _) (.trans (.seq (.chain_append _ _) (.refl _)) ?_))
    refine .trans (.seq_assoc _ _ _) (.seq (.refl _) (.seq (.seq_empty _) (.refl _)))

theorem find?_of_gappedRegex {pattern : Pattern} {word last : Text} {greed : Greed}
    (same : Regrouped pattern.regex (gappedRegex word last greed)) (caseful : pattern.mode.ignoreCase = false)
    (lines : pattern.mode.dotAll = false) (haystack : Text) :
    (pattern.find? haystack = none ↔ ∀ gap, '\n' ∉ gap → ¬word ++ gap ++ last <:+: haystack) ∧
      ∀ m, pattern.find? haystack = some m ↔
        StartsFirst (Gapped word last haystack) m ∧
          ∀ other, Gapped word last haystack other → other.start = m.start → greed.Prefers m.stop other.stop := by
  have steady : (gappedRegex word last greed).isSteady := by
    simp [gappedRegex, gapRegex, isSteady, isSteady_literalRegex, minSize]
  have candidates (m : Match) :
      CanMatch (gappedRegex word last greed) pattern.mode haystack m ↔ Gapped word last haystack m :=
    canMatch_gappedRegex caseful lines
  constructor
  · rw [Pattern.find?_eq_none_iff same steady]
    simp only [candidates, Gapped, ← Occurs.exists_iff]
    grind
  · intro m
    rw [Pattern.find?_eq_some_iff same steady, startsFirst_congr candidates]
    exact and_congr_right fun first => head?_ends_gappedRegex caseful lines first.isCandidate

/-- With any settings in between, a text, a gap and another text are found where the word of the first text stands
leftmost with the word of the second one behind it in the same line, from there to where the second word stops first, if
the gap is lazy, or last, if it is not. -/
theorem find?_across_gap (text next : Text) (isLazy : Bool) {steps : List Builder.Step}
    (only : steps.filter (!·.isSetting) = [.anything isLazy, .append (.text next)]) :
    let word := text.collapseBackslashes
    let last := next.collapseBackslashes
    ∃ builder, (Builder.of (.text text)).run steps = .ok builder ∧
      (builder.isAnchored = false → builder.flags.error? = none →
        builder.flags.contains 'i' = false → builder.flags.contains 's' = false →
        ∃ pattern, builder.compile = .ok pattern ∧ ∀ haystack,
          (pattern.find? haystack = none ↔ ∀ gap, '\n' ∉ gap → ¬word ++ gap ++ last <:+: haystack) ∧
          ∀ m, pattern.find? haystack = some m ↔
            StartsFirst (Gapped word last haystack) m ∧
              ∀ other, Gapped word last haystack other → other.start = m.start →
                if isLazy then m.stop.offset ≤ other.stop.offset else other.stop.offset ≤ m.stop.offset) := by
  intro word last
  have alone : (Builder.of (.text text)).run (steps.filter (!·.isSetting)) =
      .ok ⟨[], ((Node.literal text).anything isLazy).append (.literal next), [], .standard⟩ := by
    rw [only]
    rfl
  obtain ⟨⟨front, node, back, flags⟩, ran, rfl⟩ := StepRuns.exists_run_of_filter alone
  refine ⟨_, ran, fun free known caseful lines => ?_⟩
  simp only [Builder.isAnchored, Bool.or_eq_false_iff, Bool.not_eq_false', List.isEmpty_iff] at free
  obtain ⟨rfl, rfl⟩ := free
  obtain ⟨pattern, compiles, same, rfl⟩ := exists_gapped text next isLazy known
  refine ⟨pattern, compiles, fun haystack => ?_⟩
  have finds := find?_of_gappedRegex same caseful lines haystack
  cases isLazy with
  | false => exact finds
  | true => exact finds

/-- The second word stands behind the first one twice, and a setting is between the steps. -/
theorem find?_across_gap_of_two :
    let haystack : Text := ['a', 'b', 'b']
    let steps (isLazy : Bool) : List Builder.Step := [.anything isLazy, .removeFlags ['m'], .append (.text ['b'])]
    (steps true).filter (!·.isSetting) = [.anything true, .append (.text ['b'])] ∧
      (∃ builder pattern, (Builder.of (.text ['a'])).run (steps true) = .ok builder ∧ builder.compile = .ok pattern ∧
        pattern.find? haystack = some ⟨.start haystack, ⟨['b', 'a'], ['b']⟩⟩) ∧
    (steps false).filter (!·.isSetting) = [.anything false, .append (.text ['b'])] ∧
      ∃ builder pattern, (Builder.of (.text ['a'])).run (steps false) = .ok builder ∧ builder.compile = .ok pattern ∧
        pattern.find? haystack = some ⟨.start haystack, ⟨['b', 'b', 'a'], []⟩⟩ := by
  intro haystack steps
  have finds (isLazy : Bool)
      (only : (steps isLazy).filter (!·.isSetting) = [.anything isLazy, .append (.text ['b'])]) :=
    find?_across_gap ['a'] ['b'] isLazy only
  refine ⟨rfl, ?_, rfl, ?_⟩
  · obtain ⟨builder, ran, finds⟩ := finds true rfl
    cases ran
    obtain ⟨pattern, compiles, finds⟩ := finds rfl (by decide) (by decide) (by decide)
    refine ⟨_, pattern, rfl, compiles, ((finds haystack).2 _).mpr ⟨⟨?_, fun _ _ => Nat.zero_le _⟩, ?_⟩⟩
    · exact ⟨[], by decide, .between [] ['a', 'b'] ['b']⟩
    · rintro other ⟨gap, -, occurs⟩ start
      show 2 ≤ other.stop.offset
      have sizes : (Text.collapseBackslashes ['a']).utf8Size = 1 ∧ (Text.collapseBackslashes ['b']).utf8Size = 1 := by
        decide
      rw [occurs.offset_stop, Text.utf8Size_append, Text.utf8Size_append]
      omega
  · obtain ⟨builder, ran, finds⟩ := finds false rfl
    cases ran
    obtain ⟨pattern, compiles, finds⟩ := finds rfl (by decide) (by decide) (by decide)
    refine ⟨_, pattern, rfl, compiles, ((finds haystack).2 _).mpr ⟨⟨?_, fun _ _ => Nat.zero_le _⟩, ?_⟩⟩
    · exact ⟨['b'], by decide, .between [] ['a', 'b', 'b'] []⟩
    · rintro other ⟨gap, -, occurs⟩ start
      have inside := other.stop.offset_le_utf8Size
      rwa [occurs.reaches.text_eq, occurs.within] at inside

end Patterns

end Proofs.TextGaps
end FluentPattern
