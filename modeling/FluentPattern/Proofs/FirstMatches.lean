import FluentPattern.Proofs.LiteralMatching
import FluentPattern.Proofs.Offsets

/-! Which match a search finds, told by all the matches that there could be. Of the stretches of a text that a regex can
match, a search finds one that starts at the smallest offset, and of those that start there the one that the regex comes
to first. What a word can match is where the word occurs. -/

namespace FluentPattern

namespace Cursor

variable {haystack : Text} {first middle last : Cursor}

theorem reaches_start : (start haystack).Reaches last ↔ last.text = haystack := by
  constructor
  · intro reaches
    exact reaches.text_eq
  · rintro rfl
    exact ⟨last.before.reverse, rfl, by simp [start]⟩

theorem eq_of_offset (within : first.text = last.text) (same : first.offset = last.offset) : first = last := by
  have here := atOffset?_offset first
  rw [within, same, atOffset?_offset] at here
  exact (Option.some.inj here).symm

namespace Reaches

theorem eq_or_beyond {before : List Char} {c : Char} {rest : Text} (reaches : Reaches ⟨before, c :: rest⟩ last) :
    last = ⟨before, c :: rest⟩ ∨ Reaches ⟨c :: before, rest⟩ last := by
  obtain ⟨_ | ⟨c', read⟩, left, passed⟩ := reaches
  · exact .inl (Cursor.mk.injEq .. ▸ ⟨passed, left.symm⟩)
  · obtain ⟨rfl, further⟩ := List.cons.inj left
    exact .inr ⟨read, further, by simpa using passed⟩

theorem eq_of_nil {before : List Char} (reaches : Reaches ⟨before, []⟩ last) : last = ⟨before, []⟩ := by
  obtain ⟨read, left, passed⟩ := reaches
  obtain ⟨rfl, rest⟩ := List.append_eq_nil_iff.mp left.symm
  exact Cursor.mk.injEq .. ▸ ⟨passed, rest⟩

end Reaches
end Cursor

/-- Whether a match is a stretch of a text where a word stands. -/
structure Occurs (word haystack : Text) (m : Match) : Prop where
  within : m.start.text = haystack
  ahead : m.start.rest = word ++ m.stop.rest
  behind : m.stop.before = word.reverse ++ m.start.before

structure StartsFirst (candidate : Match → Prop) (m : Match) : Prop where
  isCandidate : candidate m
  least : ∀ other, candidate other → m.start.offset ≤ other.start.offset

theorem startsFirst_congr {candidate other : Match → Prop} (same : ∀ m, candidate m ↔ other m) {m : Match} :
    StartsFirst candidate m ↔ StartsFirst other m := by
  rw [funext fun m => propext (same m)]

/-- Whether a regex can match a stretch of a text. -/
structure CanMatch (regex : Regex) (mode : Mode) (haystack : Text) (m : Match) : Prop where
  within : m.start.text = haystack
  leads : m.stop ∈ regex.ends mode m.start

namespace Occurs

variable {word haystack : Text} {m other : Match}

theorem text_eq (occurs : Occurs word haystack m) : m.text = word := Cursor.upTo_of_rest occurs.ahead

theorem reaches (occurs : Occurs word haystack m) : m.start.Reaches m.stop := ⟨word, occurs.ahead, occurs.behind⟩

theorem offset_stop (occurs : Occurs word haystack m) : m.stop.offset = m.start.offset + word.utf8Size := by
  rw [Cursor.offset, occurs.behind, Text.utf8Size_append, Text.utf8Size_reverse, Nat.add_comm, Cursor.offset]

theorem between (front word back : Text) :
    Occurs word (front ++ word ++ back) ⟨⟨front.reverse, word ++ back⟩, ⟨word.reverse ++ front.reverse, back⟩⟩ :=
  ⟨by simp [Cursor.text], rfl, rfl⟩

theorem exists_iff : (∃ m, Occurs word haystack m) ↔ word <:+: haystack := by
  constructor
  · rintro ⟨m, rfl, ahead, -⟩
    exact ⟨m.start.before.reverse, m.stop.rest, by simp [Cursor.text, ahead]⟩
  · rintro ⟨front, back, rfl⟩
    exact ⟨_, between front word back⟩

end Occurs

namespace Proofs.FirstMatches
open Regex Searching LiteralMatching NodeReading

section Occurrences

variable {word haystack : Text} {m : Match}

theorem mem_ends_literalRegex {mode : Mode} (caseful : mode.ignoreCase = false) {cursor place : Cursor} :
    place ∈ (literalRegex word).ends mode cursor ↔
      cursor.rest = word ++ place.rest ∧ place.before = word.reverse ++ cursor.before := by
  obtain ⟨before, rest⟩ := cursor
  obtain ⟨before', rest'⟩ := place
  rw [ends_literalRegex caseful]
  by_cases here : word <+: rest
  · obtain ⟨more, rfl⟩ := here
    simp [and_comm, eq_comm]
  · simp only [if_neg here, List.not_mem_nil, false_iff, not_and]
    rintro rfl
    exact absurd (List.prefix_append word rest') here

theorem canMatch_literalRegex {mode : Mode} (caseful : mode.ignoreCase = false) :
    CanMatch (literalRegex word) mode haystack m ↔ Occurs word haystack m := by
  constructor
  · rintro ⟨within, leads⟩
    obtain ⟨ahead, behind⟩ := (mem_ends_literalRegex caseful).mp leads
    exact ⟨within, ahead, behind⟩
  · rintro ⟨within, ahead, behind⟩
    exact ⟨within, (mem_ends_literalRegex caseful).mpr ⟨ahead, behind⟩⟩

end Occurrences

section Leftmost

variable {lead : Cursor → List Cursor}

/-- Places that lead nowhere are passed by until the first one that leads somewhere. -/
theorem leftmost_sound {before : List Char} {text : Text} {m : Match} (found : leftmost lead before text = some m) :
    Cursor.Reaches ⟨before, text⟩ m.start ∧ (lead m.start).head? = some m.stop ∧
      ∀ place, Cursor.Reaches ⟨before, text⟩ place → lead place ≠ [] → m.start.Reaches place := by
  induction text generalizing before with
  | nil =>
    obtain ⟨stop, leads, rfl⟩ := Option.map_eq_some_iff.mp found
    refine ⟨.refl _, leads, fun place reached _ => ?_⟩
    rw [reached.eq_of_nil]
    exact .refl _
  | cons c text ih =>
    rw [leftmost, Option.or_eq_some_iff] at found
    rcases found with here | ⟨nowhere, later⟩
    · obtain ⟨stop, leads, rfl⟩ := Option.map_eq_some_iff.mp here
      exact ⟨.refl _, leads, fun place reached _ => reached⟩
    · obtain ⟨reached, leads, first⟩ := ih later
      refine ⟨(Cursor.Reaches.cons before c text).trans reached, leads, fun place reached' somewhere => ?_⟩
      rcases reached'.eq_or_beyond with rfl | beyond
      · rw [Option.map_eq_none_iff, List.head?_eq_none_iff] at nowhere
        exact absurd nowhere somewhere
      · exact first place beyond somewhere

end Leftmost

end Proofs.FirstMatches

namespace Pattern
open Regex Proofs.Searching Proofs.FirstMatches

variable {pattern : Pattern} {regex : Regex} (same : Regrouped pattern.regex regex) (steady : regex.isSteady)
  (haystack : Text)

include same steady

private theorem find?_eq_leftmost_of_regrouped :
    pattern.find? haystack = leftmost (regex.ends pattern.mode) [] haystack := by
  rw [find?_eq_leftmost (same.isSteady_eq.trans steady), same.ends_eq]

theorem find?_eq_none_iff : pattern.find? haystack = none ↔ ∀ m, ¬CanMatch regex pattern.mode haystack m := by
  rw [find?_eq_leftmost_of_regrouped same steady, ← Option.not_isSome_iff_eq_none, leftmost_isSome, ← not_exists,
    not_iff_not]
  constructor
  · rintro ⟨front, back, rfl, somewhere⟩
    obtain ⟨place, leads⟩ := List.exists_mem_of_ne_nil _ somewhere
    exact ⟨⟨_, place⟩, by simp [Cursor.text], leads⟩
  · rintro ⟨m, within, leads⟩
    refine ⟨m.start.before.reverse, m.start.rest, within.symm, ?_⟩
    rw [List.reverse_reverse, List.append_nil]
    exact List.ne_nil_of_mem leads

/-- A search finds what the regex can match and starts at the smallest offset, and stops where the regex prefers to. -/
theorem find?_eq_some_iff {m : Match} :
    pattern.find? haystack = some m ↔
      StartsFirst (CanMatch regex pattern.mode haystack) m ∧
        (regex.ends pattern.mode m.start).head? = some m.stop := by
  have sound {m : Match} (found : pattern.find? haystack = some m) :
      StartsFirst (CanMatch regex pattern.mode haystack) m ∧
        (regex.ends pattern.mode m.start).head? = some m.stop := by
    rw [find?_eq_leftmost_of_regrouped same steady] at found
    obtain ⟨reached, leads, first⟩ := leftmost_sound found
    refine ⟨⟨⟨Cursor.reaches_start.mp reached, List.mem_of_mem_head? leads⟩, ?_⟩, leads⟩
    intro other candidate
    exact (first _ (Cursor.reaches_start.mpr candidate.within) (List.ne_nil_of_mem candidate.leads)).offset_le
  refine ⟨sound, fun ⟨first, leads⟩ => ?_⟩
  cases found : pattern.find? haystack with
  | none => exact absurd first.isCandidate ((find?_eq_none_iff same steady haystack).mp found m)
  | some other =>
    obtain ⟨first', leads'⟩ := sound found
    -- Each of the two starts no later than the other one.
    have start : other.start = m.start :=
      Cursor.eq_of_offset (first'.isCandidate.within.trans first.isCandidate.within.symm)
        (Nat.le_antisymm (first'.least _ first.isCandidate) (first.least _ first'.isCandidate))
    rw [start, leads, Option.some.injEq] at leads'
    obtain ⟨start', stop'⟩ := other
    obtain rfl : start' = m.start := start
    obtain rfl : m.stop = stop' := leads'
    rfl

end Pattern
end FluentPattern
