import FluentPattern.Proofs.Searching

/-! Which words a regex takes. A repetition of what always reads stops after some number of passes within its bounds,
whatever it prefers, and so a repetition of one character stops behind any stretch of such characters that is neither
too short nor too long. Between both anchors of a text a search has no choice of where to start and to stop, so a
pattern matches just the words that the regex between the anchors takes as a whole. -/

namespace FluentPattern.Regex

/-- Whether a regex can read all of a text. -/
def Takes (mode : Mode) (regex : Regex) (word : Text) : Prop := ∃ place ∈ regex.ends mode (.start word), place.rest = []

end FluentPattern.Regex

namespace FluentPattern.Proofs.Words
open Regex Searching

section Passes

variable {greed : Greed} {lead : Cursor → List Cursor} {cursor place : Cursor}

theorem mem_passes_add {one other : Nat} :
    place ∈ passes lead (one + other) cursor ↔ ∃ middle ∈ passes lead one cursor, place ∈ passes lead other middle := by
  induction one generalizing cursor with
  | zero => simp [passes]
  | succ one ih =>
    simp only [Nat.succ_add, passes, List.mem_flatMap, ih]
    constructor
    · rintro ⟨first, leads, middle, later, last⟩
      exact ⟨middle, ⟨first, leads, later⟩, last⟩
    · rintro ⟨middle, ⟨first, leads, later⟩, last⟩
      exact ⟨first, leads, middle, later, last⟩

/-- What a repetition prefers makes no difference to where it can stop. -/
theorem mem_upTo {count : Nat} :
    place ∈ upTo greed lead count cursor ↔ ∃ number ≤ count, place ∈ passes lead number cursor := by
  induction count generalizing cursor with
  | zero => simp [upTo, passes]
  | succ count ih =>
    simp only [mem_upTo_succ, List.mem_flatMap, ih]
    constructor
    · rintro (⟨middle, leads, number, few, later⟩ | rfl)
      · exact ⟨number + 1, Nat.succ_le_succ few, List.mem_flatMap.mpr ⟨middle, leads, later⟩⟩
      · exact ⟨0, Nat.zero_le _, List.mem_singleton_self _⟩
    · rintro ⟨_ | number, few, member⟩
      · exact .inr (List.mem_singleton.mp member)
      · obtain ⟨middle, leads, later⟩ := List.mem_flatMap.mp member
        exact .inl ⟨middle, leads, number, Nat.le_of_succ_le_succ few, later⟩

variable (reads : ∀ cursor, ∀ place ∈ lead cursor, place.rest.length < cursor.rest.length)

include reads

theorem reading_eq_self : reading lead = lead := by
  funext cursor
  exact List.filter_eq_self.mpr fun place member => decide_eq_true (reads cursor place member)

theorem le_length_of_mem_passes {count : Nat} (member : place ∈ passes lead count cursor) :
    count ≤ cursor.rest.length := by
  induction count generalizing cursor with
  | zero => exact Nat.zero_le _
  | succ count ih =>
    obtain ⟨middle, leads, later⟩ := List.mem_flatMap.mp member
    exact Nat.lt_of_le_of_lt (ih later) (reads cursor middle leads)

/-- A repetition of what always reads stops after any number of passes within its bounds. -/
theorem mem_loopEnds {bounds : Bounds} (straight : bounds.reversed = false) :
    place ∈ loopEnds bounds greed lead cursor ↔
      ∃ count, bounds.least ≤ count ∧ (∀ most ∈ bounds.most, count ≤ most) ∧ place ∈ passes lead count cursor := by
  unfold loopEnds
  cases limit : bounds.most with
  | some most =>
    have inOrder := Bounds.least_le straight limit
    simp only [Nat.min_eq_left inOrder, List.mem_flatMap, mem_upTo, Option.mem_some_iff, forall_eq']
    constructor
    · rintro ⟨middle, first, number, few, later⟩
      exact ⟨bounds.least + number, Nat.le_add_right .., by omega, mem_passes_add.mpr ⟨middle, first, later⟩⟩
    · rintro ⟨count, least, few, member⟩
      obtain ⟨number, rfl⟩ := Nat.exists_eq_add_of_le least
      obtain ⟨middle, first, later⟩ := mem_passes_add.mp member
      exact ⟨middle, first, number, by omega, later⟩
  | none =>
    simp only [List.mem_flatMap, reading_eq_self reads, mem_upTo]
    constructor
    · rintro ⟨middle, first, number, -, later⟩
      exact ⟨bounds.least + number, Nat.le_add_right .., by simp, mem_passes_add.mpr ⟨middle, first, later⟩⟩
    · rintro ⟨count, least, -, member⟩
      obtain ⟨number, rfl⟩ := Nat.exists_eq_add_of_le least
      obtain ⟨middle, first, later⟩ := mem_passes_add.mp member
      exact ⟨middle, first, number, le_length_of_mem_passes reads later, later⟩

end Passes

section Characters

variable {mode : Mode} {set : CharSet} {cursor place : Cursor}

theorem mem_ends_char :
    place ∈ (Regex.char set).ends mode cursor ↔
      ∃ c, set.contains mode c ∧ cursor.rest = c :: place.rest ∧ place.before = c :: cursor.before := by
  obtain ⟨before, _ | ⟨c, rest⟩⟩ := cursor
  · simp [ends]
  · obtain ⟨before', rest'⟩ := place
    simp only [ends]
    split
    next present =>
      simp only [List.mem_singleton, Cursor.mk.injEq, List.cons.injEq]
      constructor
      · rintro ⟨rfl, rfl⟩
        exact ⟨c, present, ⟨rfl, rfl⟩, rfl⟩
      · rintro ⟨_, -, ⟨rfl, rfl⟩, rfl⟩
        exact ⟨rfl, rfl⟩
    next absent =>
      refine ⟨fun member => absurd member List.not_mem_nil, ?_⟩
      rintro ⟨_, present, same, -⟩
      obtain ⟨rfl, rfl⟩ := List.cons.inj same
      exact absurd present absent

theorem char_reads (cursor : Cursor) :
    ∀ place ∈ (Regex.char set).ends mode cursor, place.rest.length < cursor.rest.length := by
  intro place member
  obtain ⟨c, -, rest, -⟩ := mem_ends_char.mp member
  simp [rest]

theorem mem_passes_char {count : Nat} :
    place ∈ passes ((Regex.char set).ends mode) count cursor ↔
      ∃ read : Text, read.length = count ∧ (∀ c ∈ read, set.contains mode c) ∧
        cursor.rest = read ++ place.rest ∧ place.before = read.reverse ++ cursor.before := by
  induction count generalizing cursor with
  | zero =>
    simp only [passes, List.mem_singleton, List.length_eq_zero_iff]
    constructor
    · rintro rfl
      exact ⟨[], rfl, by simp, rfl, rfl⟩
    · rintro ⟨_, rfl, -, rest, before⟩
      exact Cursor.mk.injEq .. ▸ ⟨before, rest.symm⟩
  | succ count ih =>
    simp only [passes, List.mem_flatMap, mem_ends_char, ih]
    constructor
    · rintro ⟨middle, ⟨c, present, rest, before⟩, read, length, all, rest', before'⟩
      exact ⟨c :: read, by simp [length], List.forall_mem_cons.mpr ⟨present, all⟩, by simp [rest, rest'],
        by simp [before, before']⟩
    · rintro ⟨_ | ⟨c, read⟩, length, all, rest, before⟩
      · cases length
      · obtain ⟨present, all⟩ := List.forall_mem_cons.mp all
        exact ⟨⟨c :: cursor.before, read ++ place.rest⟩, ⟨c, present, rest, rfl⟩, read, Nat.succ.inj length, all, rfl,
          by simpa using before⟩

theorem takes_char {word : Text} : (Regex.char set).Takes mode word ↔ ∃ c, word = [c] ∧ set.contains mode c := by
  simp only [Takes, mem_ends_char, Cursor.start]
  constructor
  · rintro ⟨place, ⟨c, present, rfl, -⟩, stop⟩
    exact ⟨c, by rw [stop], present⟩
  · rintro ⟨c, rfl, present⟩
    exact ⟨⟨[c], []⟩, ⟨c, present, rfl, rfl⟩, rfl⟩

theorem takes_loop_char {bounds : Bounds} (straight : bounds.reversed = false) (greed : Greed) {word : Text} :
    (Regex.loop (.char set) bounds greed).Takes mode word ↔
      bounds.least ≤ word.length ∧ (∀ most ∈ bounds.most, word.length ≤ most) ∧ ∀ c ∈ word, set.contains mode c := by
  simp only [Takes, ends, mem_loopEnds char_reads straight, mem_passes_char, Cursor.start]
  constructor
  · rintro ⟨place, ⟨_, least, most, read, rfl, all, rest, -⟩, stop⟩
    rw [stop, List.append_nil] at rest
    exact rest ▸ ⟨least, most, all⟩
  · rintro ⟨least, most, all⟩
    exact ⟨⟨word.reverse, []⟩, ⟨word.length, least, most, word, rfl, all, by simp, by simp⟩, rfl⟩

end Characters

section Anchors

variable {mode : Mode} {regex : Regex}

theorem ends_anchored (single : mode.multiLine = false) (cursor : Cursor) :
    (Regex.seq .atStart (.seq regex .atEnd)).ends mode cursor ≠ [] ↔
      cursor.before = [] ∧ regex.Takes mode cursor.rest := by
  have start : (State.start cursor).isStart mode.multiLine = cursor.before.isEmpty := by
    obtain ⟨before, rest⟩ := cursor
    cases before <;> simp [State.isStart, State.start, single]
  have stop (place : Cursor) : (State.start place).isEnd mode.multiLine = place.rest.isEmpty := by
    obtain ⟨_, rest⟩ := place
    cases rest <;> simp [State.isEnd, State.start, single]
  obtain ⟨before, rest⟩ := cursor
  simp only [ends, start, stop]
  cases before with
  | cons c before => simp
  | nil => simp [Takes, Cursor.start, List.flatMap_eq_nil_iff]

end Anchors

end FluentPattern.Proofs.Words

namespace FluentPattern.Pattern
open Regex

/-- A pattern between both anchors of a text matches what the regex between the anchors takes. -/
theorem isMatch_iff_takes {pattern : Pattern} {regex : Regex}
    (same : Regrouped pattern.regex (.seq .atStart (.seq regex .atEnd))) (steady : regex.isSteady)
    (single : pattern.mode.multiLine = false) (word : Text) : pattern.isMatch word ↔ regex.Takes pattern.mode word := by
  have all : pattern.regex.isSteady := by simpa [same.isSteady_eq, isSteady] using steady
  rw [isMatch_iff all, same.ends_eq]
  simp only [Proofs.Words.ends_anchored single, List.reverse_eq_nil_iff]
  constructor
  · rintro ⟨front, back, rfl, rfl, takes⟩
    exact takes
  · intro takes
    exact ⟨[], word, rfl, rfl, takes⟩

end FluentPattern.Pattern
