import FluentPattern.Pattern
import FluentPattern.Proofs.Progress
import Mathlib.Data.List.Nodup

/-! All matches of a text, and what is put in their place. A search starts where the last match ended, or further on
after an empty one, so each match stands behind the one before it and starts at another place. A text in which matches
stand in line falls into gaps and matches, and to replace is to keep the gaps. -/

namespace FluentPattern

def Match.span (m : Match) : Nat × Nat := (m.start.offset, m.stop.offset)

namespace Proofs.Replacing
open Regex

/-- Whether matches stand one after the other from a place on, and no two of them start at the same place. -/
inductive InLine : Cursor → List Match → Prop where
  | nil {place} : InLine place []
  | cons {place m later} (ahead : m.IsAhead place)
      (further : ∀ next ∈ later, next.start.rest.length < m.start.rest.length)
      (behind : InLine m.stop later) : InLine place (m :: later)

section Lines

variable {place : Cursor} {found : List Match}

namespace InLine

theorem mono {earlier : Cursor} (inLine : InLine place found) (reaches : earlier.Reaches place) :
    InLine earlier found := by
  cases inLine with
  | nil => exact .nil
  | cons ahead further behind => exact .cons (ahead.mono reaches) further behind

theorem isAhead (inLine : InLine place found) : ∀ m ∈ found, m.IsAhead place := by
  induction inLine with
  | nil => simp
  | cons ahead _ _ ih =>
    exact List.forall_mem_cons.mpr ⟨ahead, fun m member => (ih m member).mono (ahead.start.trans ahead.stop)⟩

theorem reaches (inLine : InLine place found) :
    ∀ next ∈ found.flatMap fun m => [m.start, m.stop], place.Reaches next := by
  intro next member
  obtain ⟨m, present, listed⟩ := List.mem_flatMap.mp member
  have ahead := inLine.isAhead m present
  rcases List.mem_pair.mp listed with rfl | rfl
  · exact ahead.start
  · exact ahead.start.trans ahead.stop

theorem pairwise_reaches (inLine : InLine place found) :
    (found.flatMap fun m => [m.start, m.stop]).Pairwise Cursor.Reaches := by
  induction inLine with
  | nil => exact .nil
  | cons ahead _ behind ih =>
    refine .cons (List.forall_mem_cons.mpr ⟨ahead.stop, fun next member => ?_⟩) (.cons behind.reaches ih)
    exact ahead.stop.trans (behind.reaches next member)

theorem nodup (inLine : InLine place found) : (found.map (·.start)).Nodup := by
  induction inLine with
  | nil => exact .nil
  | cons _ further _ ih =>
    refine .cons (fun member => ?_) ih
    obtain ⟨next, present, same⟩ := List.mem_map.mp member
    have less := further next present
    rw [same] at less
    exact Nat.lt_irrefl _ less

theorem exists_gaps (inLine : InLine place found) :
    ∃ (gaps : List Text) (last : Text), gaps.length = found.length ∧
      place.rest = ((gaps.zip found).flatMap fun (gap, m) => gap ++ m.text) ++ last ∧
      ∀ replacement, Pattern.replaceFrom replacement place found = gaps.flatMap (· ++ replacement) ++ last := by
  induction inLine with
  | @nil place => exact ⟨[], place.rest, rfl, rfl, fun _ => rfl⟩
  | @cons place m later ahead _ _ ih =>
    obtain ⟨gaps, last, count, whole, replaced⟩ := ih
    refine ⟨place.upTo m.start :: gaps, last, by simp [count], ?_, fun replacement => ?_⟩
    · rw [ahead.start.rest_eq, ahead.stop.rest_eq, whole]
      simp [Match.text]
    · simp [Pattern.replaceFrom, replaced]

/-- To put a text in the place of the matches is to do so by their offsets, and no slice is missing. -/
theorem splice?_eq (inLine : InLine place found) (replacement : Text) :
    place.text.splice? replacement place.offset (found.map Match.span) =
      some (Pattern.replaceFrom replacement place found) := by
  induction inLine with
  | @nil place => exact place.slice?_utf8Size
  | @cons place m later ahead _ _ ih =>
    have kept := Cursor.slice?_offset ahead.start
    have sameText : m.stop.text = place.text := (ahead.start.trans ahead.stop).text_eq
    rw [sameText] at ih
    simp [Text.splice?, Match.span, kept, ih, Pattern.replaceFrom]

end InLine

end Lines

section Searches

variable {plan : Plan} {mode : Mode} {limit : Nat} {cursor : Cursor} {m : Match}

private theorem cons_inLine {place : Cursor} {later : List Match} (ahead : m.IsAhead cursor)
    (inLine : InLine place later) (reaches : m.stop.Reaches place)
    (less : place.rest.length < m.start.rest.length) : InLine cursor (m :: later) :=
  .cons ahead (fun next member => Nat.lt_of_le_of_lt (inLine.isAhead next member).start.length_le less)
    (inLine.mono reaches)

/-- After an empty match the search goes on one character further, so that it does not find it again. -/
private theorem inLine_after_empty
    (ih : ∀ cursor touching, InLine cursor (plan.matchesFrom mode limit cursor touching)) (ahead : m.IsAhead cursor)
    (again : Prop) [Decidable again] :
    let later :=
      match m.stop.next? with
      | some after => plan.matchesFrom mode limit after false
      | none => []
    InLine cursor (if again then later else m :: later) := by
  intro later
  cases found : m.stop.next? with
  | none =>
    have none : later = [] := by simp only [later, found]
    rw [none]
    split
    · exact .nil
    · exact .cons ahead (by simp) .nil
  | some after =>
    obtain ⟨c, rest, before⟩ := Cursor.rest_of_next? found
    have onward : m.stop.Reaches after := ⟨[c], rest, before⟩
    have inLine : InLine after later := by
      simp only [later, found]
      exact ih after false
    have less : after.rest.length < m.stop.rest.length := by simp [rest]
    split
    · exact inLine.mono ((ahead.start.trans ahead.stop).trans onward)
    · exact cons_inLine ahead inLine onward (Nat.lt_of_lt_of_le less ahead.stop.length_le)

/-- A search for all matches finds them in line. -/
theorem inLine_matchesFrom (plan : Plan) (mode : Mode) (limit : Nat) (cursor : Cursor) (touching : Bool) :
    InLine cursor (plan.matchesFrom mode limit cursor touching) := by
  induction limit generalizing cursor touching with
  | zero => exact .nil
  | succ limit ih =>
    simp only [Plan.matchesFrom]
    split
    · exact .nil
    next m _ searched =>
      have ahead : m.IsAhead cursor := Progress.whole_isAhead searched
      split
      next => exact inLine_after_empty ih ahead _
      next nonempty =>
        have read : m.start.upTo m.stop ≠ [] := by simpa [Match.isEmpty, Match.text] using nonempty
        have less : m.stop.rest.length < m.start.rest.length := by
          rw [ahead.stop.rest_eq, List.length_append]
          exact Nat.lt_add_of_pos_left (List.length_pos_iff.mpr read)
        exact cons_inLine ahead (ih m.stop true) (.refl m.stop) less

end Searches

section Patterns

variable (pattern : Pattern) (haystack : Text)

theorem inLine_findAll : InLine (.start haystack) (pattern.findAll haystack) := by
  unfold Pattern.findAll
  split
  · exact inLine_matchesFrom ..
  · cases searched : pattern.search? haystack with
    | none =>
      rw [Pattern.find?, searched]
      exact .nil
    | some found =>
      rw [Pattern.find?, searched]
      exact .cons (Progress.whole_isAhead searched) (by simp) .nil

theorem head?_findAll : (pattern.findAll haystack).head? = pattern.find? haystack := by
  unfold Pattern.findAll
  split
  · unfold Pattern.find? Pattern.search? allMatches
    simp only [Plan.matchesFrom, Regex.search?]
    cases pattern.regex.plan.search? pattern.mode (.start haystack) with
    | none => rfl
    | some found =>
      obtain ⟨m, groups⟩ := found
      cases empty : m.isEmpty <;> simp [empty]
  · cases pattern.find? haystack <;> rfl

theorem reportedGroups_pos (regex : Regex) : 0 < regex.reportedGroups := by
  have outer : 0 < regex.framed.groupBound 0 := by
    have group (body : Regex) : 0 < (Regex.capture none body).groupBound 0 :=
      Nat.lt_of_lt_of_le Nat.one_pos (Nat.le_max_left ..)
    unfold framed
    split
    · split
      · exact Nat.lt_of_lt_of_le (group _) (Nat.le_max_left ..)
      · exact group _
    · exact group _
  unfold reportedGroups
  split
  · exact outer
  · exact Nat.lt_of_lt_of_le outer (by simpa using groupBound_le regex.framed 0)

theorem get?_zero_captures? :
    (pattern.captures? haystack).map (·.get? 0) = (pattern.find? haystack).map some := by
  cases searched : pattern.search? haystack with
  | none => simp [Pattern.captures?, Pattern.find?, searched]
  | some found =>
    obtain ⟨whole, -⟩ := Progress.isAhead_of_search? searched
    simp [Pattern.captures?, Pattern.find?, Captures.get?, searched, whole, reportedGroups_pos]

variable {pattern haystack}

theorem places_of_mem {found : List Match} (inLine : InLine (.start haystack) found) {m : Match} (member : m ∈ found) :
    Cursor.atOffset? haystack m.start.offset = some m.start ∧ Cursor.atOffset? haystack m.stop.offset = some m.stop ∧
      haystack.slice? m.start.offset m.stop.offset = some m.text := by
  have ahead := inLine.isAhead m member
  have first : m.start.text = haystack := ahead.start.text_eq
  have last : m.stop.text = haystack := ahead.stop.text_eq.trans first
  have slice := Cursor.slice?_offset ahead.stop
  have start := Cursor.atOffset?_offset m.start
  have stop := Cursor.atOffset?_offset m.stop
  rw [first] at start slice
  rw [last] at stop
  exact ⟨start, stop, slice⟩

theorem nodup_span {found : List Match} (inLine : InLine (.start haystack) found) : (found.map Match.span).Nodup := by
  have starts := inLine.nodup
  refine starts.of_map.map_on fun m member m' member' same => ?_
  have offsets : m.start.offset = m'.start.offset := congrArg Prod.fst same
  have place := (places_of_mem inLine member).1
  rw [offsets, (places_of_mem inLine member').1] at place
  exact List.inj_on_of_nodup_map starts member member' (Option.some.inj place).symm

theorem pairwise_offsets {found : List Match} (inLine : InLine (.start haystack) found) :
    ((found.flatMap fun m => [m.start.offset, m.stop.offset]) ++ [haystack.utf8Size]).Pairwise (· ≤ ·) := by
  have offsets : (found.flatMap fun m => [m.start.offset, m.stop.offset]) =
      (found.flatMap fun m => [m.start, m.stop]).map Cursor.offset := by
    simp [List.map_flatMap]
  rw [offsets, List.pairwise_append, List.pairwise_map]
  refine ⟨inLine.pairwise_reaches.imp Cursor.Reaches.offset_le, List.pairwise_singleton .., fun offset member => ?_⟩
  obtain ⟨place, listed, rfl⟩ := List.mem_map.mp member
  have sameText : place.text = haystack := (inLine.reaches place listed).text_eq
  rintro last (_ | ⟨_, ⟨⟩⟩)
  exact sameText ▸ place.offset_le_utf8Size

/-- All entry points agree about the first match. The matches of a text start and end where characters do, in order and
without overlap, and no two of them are at one place; each has the text between its offsets. A replacement keeps what
is between the matches as it is, and puts the given text, as it is, in the place of each of them. -/
theorem matches_fit (pattern : Pattern) (haystack : Text) :
    let found := pattern.findAll haystack
    (pattern.isMatch haystack = (pattern.find? haystack).isSome ∧
      pattern.isMatch haystack = (pattern.captures? haystack).isSome ∧
      (pattern.captures? haystack).map (·.get? 0) = (pattern.find? haystack).map some) ∧
    ((pattern.isGlobal = false → found.length ≤ 1) ∧ found.head? = pattern.find? haystack) ∧
    ((found.flatMap fun m => [m.start.offset, m.stop.offset]) ++ [haystack.utf8Size]).Pairwise (· ≤ ·) ∧
    (found.map Match.span).Nodup ∧
    (∀ m ∈ found, Cursor.atOffset? haystack m.start.offset = some m.start ∧
      Cursor.atOffset? haystack m.stop.offset = some m.stop ∧
      haystack.slice? m.start.offset m.stop.offset = some m.text) ∧
    (∀ replacement, haystack.splice? replacement 0 (found.map Match.span) =
      some (pattern.replace haystack replacement)) ∧
    (found = [] → ∀ replacement, pattern.replace haystack replacement = haystack) ∧
    ∃ (gaps : List Text) (last : Text), gaps.length = found.length ∧
      haystack = ((gaps.zip found).flatMap fun (gap, m) => gap ++ m.text) ++ last ∧
      ∀ replacement, pattern.replace haystack replacement = gaps.flatMap (· ++ replacement) ++ last := by
  intro found
  have inLine : InLine (.start haystack) found := inLine_findAll pattern haystack
  refine ⟨⟨?_, ?_, get?_zero_captures? pattern haystack⟩, ⟨fun single => ?_, head?_findAll pattern haystack⟩,
    pairwise_offsets inLine, nodup_span inLine, fun m member => places_of_mem inLine member,
    fun replacement => inLine.splice?_eq replacement, fun none replacement => ?_, inLine.exists_gaps⟩
  · simp [Pattern.isMatch, Pattern.find?]
  · simp [Pattern.isMatch, Pattern.captures?]
  · have first : found = (pattern.find? haystack).toList := by simp [found, Pattern.findAll, single]
    rw [first]
    cases pattern.find? haystack <;> simp
  · have empty : pattern.findAll haystack = [] := none
    rw [Pattern.replace, empty]
    rfl

/-- An empty match before a character of two bytes, and a match at the end with no empty one after it; then a search for
one match that there is not. -/
theorem matches_fit_of_star :
    (∃ pattern, Pattern.compile ['a', '*'] ['g'] = .ok pattern ∧
      (pattern.findAll ['é', 'a']).map Match.span = [(0, 0), (2, 3)] ∧
      Text.slice? ['é', 'a'] 2 3 = some ['a'] ∧
      Text.splice? ['é', 'a'] ['-'] 0 [(0, 0), (2, 3)] = some (pattern.replace ['é', 'a'] ['-'])) ∧
    ∃ pattern, Pattern.compile ['b'] [] = .ok pattern ∧ (pattern.findAll ['é', 'a']).length ≤ 1 ∧
      pattern.replace ['é', 'a'] ['-'] = ['é', 'a'] := by
  obtain ⟨stars, compiles⟩ : ∃ pattern, Pattern.compile ['a', '*'] ['g'] = .ok pattern := ⟨_, rfl⟩
  obtain ⟨single, compiles'⟩ : ∃ pattern, Pattern.compile ['b'] [] = .ok pattern := ⟨_, rfl⟩
  refine ⟨⟨stars, compiles, ?_⟩, single, compiles', ?_⟩
  · have found : stars.findAll ['é', 'a'] =
        [⟨⟨[], ['é', 'a']⟩, ⟨[], ['é', 'a']⟩⟩, ⟨⟨['é'], ['a']⟩, ⟨['a', 'é'], []⟩⟩] := by
      cases compiles
      rfl
    obtain ⟨-, -, -, -, places, spliced, -⟩ := matches_fit stars ['é', 'a']
    have spliced := spliced ['-']
    rw [found] at places spliced ⊢
    exact ⟨rfl, (places ⟨⟨['é'], ['a']⟩, ⟨['a', 'é'], []⟩⟩ (by simp)).2.2, spliced⟩
  · have none : single.findAll ['é', 'a'] = [] := by
      cases compiles'
      rfl
    obtain ⟨-, ⟨few, -⟩, -, -, -, -, unchanged, -⟩ := matches_fit single ['é', 'a']
    have one : single.isGlobal = false := by
      cases compiles'
      rfl
    exact ⟨few one, unchanged none ['-']⟩

end Patterns

end Proofs.Replacing

end FluentPattern
