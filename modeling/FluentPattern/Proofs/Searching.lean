import FluentPattern.Proofs.Compiling
import FluentPattern.Proofs.Planning

/-! What a search finds, told without states: the first place from which the regex leads anywhere, up to the first place
where it can stop. The condition that a regex can end in is matched after the group around the match, which changes
nothing about where the match stops. -/

namespace FluentPattern.Proofs.Searching
open Regex PassLimits Preference Matching Planning

variable {text : Text} {final : Bool} {mode : Mode} {pass next : List State → List State}
  {lead lead' : Cursor → List Cursor}

/-- What is done to the first state of a match, so that group number zero has captured all that has been read. -/
def Frames (text : Text) (final : Bool) (pass : List State → List State) (lead : Cursor → List Cursor) : Prop :=
  ∀ cursor : Cursor, cursor.text = text → ∀ test : Cursor → Bool, (final → ∀ cursor, test cursor) →
    pick test ((pass [.start cursor]).map spot) =
      ((lead cursor).find? test).map fun place => (place, some ⟨cursor, place⟩)

theorem frames_capture (follows : Follows text final pass lead) (forward : Forward lead) :
    Frames text final
      (fun states => fresh (states.flatMap fun state => (pass [state]).map (·.record 0 state.cursor))) lead := by
  intro cursor within test anything
  have start : (State.start cursor).cursor.text = text := within
  have noted : (spot ∘ fun after : State => after.record 0 cursor) =
      (fun at' : Spot => (at'.1, some ⟨cursor, at'.1⟩)) ∘ spot := rfl
  have recorded : pick test (((pass [.start cursor]).map (·.record 0 cursor)).map spot) =
      ((lead cursor).find? test).map fun place => (place, some ⟨cursor, place⟩) := by
    rw [List.map_map, noted, ← List.map_map, pick, List.find?_map]
    have single := follows.single start anything
    rw [pick, seek_eq] at single
    simp only [Function.comp_def, single, Option.map_map]
    rfl
  rw [← recorded]
  show pick test ((fresh ([State.start cursor].flatMap _)).map spot) = _
  rw [List.flatMap_singleton]
  cases final with
  | true =>
    rw [pick_all (anything rfl), pick_all (anything rfl), List.head?_map, List.head?_map, head?_fresh]
    rfl
  | false =>
    have inside : Within text ((pass [.start cursor]).map (·.record 0 cursor)) := by
      intro state member
      obtain ⟨after, present, rfl⟩ := List.mem_map.mp member
      exact follows.within forward (by simpa [Within] using start) after present
    exact pick_fresh inside test

private theorem map_spot_whole (regex : Regex) (cursor : Cursor) :
    ((Plan.whole regex).ways mode 0 [.start cursor]).map spot =
      (regex.ways mode 0 none [.start cursor]).head?.toList.map spot := by
  have start : (State.start cursor).withoutGroups = .start cursor := rfl
  simp only [Plan.ways, List.filterMap_cons, List.filterMap_nil, start]
  cases (regex.ways mode 0 none [.start cursor]).head? with
  | none => rfl
  | some after => simp [fresh, spot, State.goTo, State.start]

theorem frames_whole {regex : Regex} (frames : Frames text true (regex.ways mode 0 none) lead)
    (alone : ∀ test : Cursor → Bool, (final → ∀ cursor, test cursor) → ∀ cursor,
      (lead cursor).head?.toList.find? test = (lead cursor).find? test) :
    Frames text final ((Plan.whole regex).ways mode 0) lead := by
  intro cursor within test anything
  have first := frames cursor within (fun _ => true) fun _ _ => rfl
  rw [pick_all fun _ => rfl, List.head?_map] at first
  rw [map_spot_whole, ← alone test anything]
  have head : (lead cursor).find? (fun _ => true) = (lead cursor).head? := by cases lead cursor <;> rfl
  rw [head] at first
  cases reached : (regex.ways mode 0 none [.start cursor]).head? with
  | none =>
    rw [reached, Option.map_none, eq_comm, Option.map_eq_none_iff] at first
    simp [first, pick]
  | some after =>
    rw [reached] at first
    obtain ⟨place, leads, same⟩ := Option.map_eq_some_iff.mp first.symm
    simp only [leads, Option.toList_some, List.map_cons, List.map_nil, ← same, pick, List.find?_singleton]
    split <;> rfl

def matched (states : List State) : Option Match := states.head?.bind (·.groups.lookup 0)

private theorem matched_eq (states : List State) : matched states = (states.map spot).head?.bind (·.2) := by
  cases states <;> rfl

theorem matched_whole (regex : Regex) (cursor : Cursor) :
    matched ((Plan.whole regex).ways mode 0 [.start cursor]) = matched (regex.ways mode 0 none [.start cursor]) := by
  rw [matched_eq, matched_eq, map_spot_whole]
  cases regex.ways mode 0 none [.start cursor] <;> rfl

theorem matched_of_frames (frames : Frames text true pass lead) {cursor : Cursor} (within : cursor.text = text) :
    matched (pass [.start cursor]) = (lead cursor).head?.map (⟨cursor, ·⟩) := by
  have first := frames cursor within (fun _ => true) fun _ _ => rfl
  rw [pick_all fun _ => rfl] at first
  rw [matched_eq, first]
  cases lead cursor <;> rfl

/-- What comes after the group around the match chooses among the places where the match can stop. -/
theorem matched_of_follows (frames : Frames text false pass lead) (forward : Forward lead)
    (follows : Follows text true next lead') {cursor : Cursor} (within : cursor.text = text) :
    matched (next (pass [.start cursor])) =
      ((lead cursor).find? fun place => !(lead' place).isEmpty).map (⟨cursor, ·⟩) := by
  have same (test : Cursor → Bool) : pick test ((pass [.start cursor]).map spot) =
      pick test ((lead cursor).map fun place => (place, some ⟨cursor, place⟩)) := by
    rw [frames cursor within test (by simp), pick, List.find?_map]
    rfl
  have inside : Within text (pass [.start cursor]) := by
    intro state member
    have found : (pick (· == state.cursor) ((pass [.start cursor]).map spot)).isSome := by
      simp only [pick, List.find?_isSome, List.mem_map]
      exact ⟨spot state, ⟨state, member, rfl⟩, by simp [spot]⟩
    rw [frames cursor within _ (by simp), Option.isSome_map, List.find?_isSome] at found
    obtain ⟨place, leads, equal⟩ := found
    rw [← eq_of_beq equal]
    exact (forward _ _ leads).1.trans within
  have first := follows _ inside (fun _ => true) fun _ _ => rfl
  rw [pick_all fun _ => rfl, findSome?_seek same] at first
  rw [matched_eq, first]
  induction lead cursor with
  | nil => rfl
  | cons place places ih =>
    simp only [List.map_cons, List.findSome?_cons, seek_eq, List.find?_cons]
    cases lead' place with
    | nil => simpa using ih
    | cons other others => rfl

private theorem frames_whole_capture {regex : Regex} (name : Option Text) (steady : regex.isSteady)
    (straight : Straight (.whole (.capture name regex))) (alone : Alone final regex) :
    Frames text final ((Plan.whole (.capture name regex)).ways mode 0) (regex.ends mode) := by
  have straight : regex.hasReversedBounds = false := straight (.capture name regex) (List.mem_singleton_self _)
  have ways : Follows text true (regex.ways mode 1 none) (regex.ends mode) :=
    (ways_follows steady straight Nat.one_pos).weaken
  exact frames_whole (frames_capture ways (forward_ends mode regex)) fun _ => find?_of_alone alone

private theorem frames_planFor {regex : Regex} (name : Option Text) (steady : regex.isSteady) {position : Position}
    (straight : Straight ((Regex.capture name regex).planFor position final)) :
    Frames text final (((Regex.capture name regex).planFor position final).ways mode 0) (regex.ends mode) := by
  unfold planFor at straight ⊢
  split at straight
  next plain =>
    rw [if_pos plain]
    exact frames_whole_capture name steady straight fun some => by simp [some] at plain
  next some =>
    rw [if_neg some]
    exact frames_capture (planFor_follows steady straight Nat.one_pos) (forward_ends mode regex)

/-- A regex that ends in a condition on the text ahead is matched in two parts, any other one as a whole. -/
private theorem framed_cases (regex : Regex) :
    regex.framed = .capture none regex ∨
      ∃ front ahead, Regrouped regex (.seq front (.look true ahead)) ∧
        regex.framed = .seq (.capture none front) (.seq ahead .empty) := by
  have whole := regrouped_pieces regex
  unfold framed
  split
  next ahead last =>
    split
    · obtain ⟨front, pieces⟩ := List.getLast?_eq_some_iff.mp last
      rw [pieces] at whole ⊢
      refine .inr ⟨seqAll front, ahead, ?_, by rw [List.dropLast_concat]; rfl⟩
      exact whole.trans (.trans (.chain_append _ _) (.seq (.symm (.seqAll_chain _)) (.seq_empty _)))
    · exact .inl rfl
  · exact .inl rfl

private theorem head?_ends_look {regex front ahead : Regex} (same : Regrouped regex (.seq front (.look true ahead)))
    (cursor : Cursor) :
    (regex.ends mode cursor).head? =
      (front.ends mode cursor).find? fun place => !((Regex.seq ahead .empty).ends mode place).isEmpty := by
  rw [same.ends_eq]
  simp only [ends, List.flatMap_singleton']
  induction front.ends mode cursor with
  | nil => rfl
  | cons place places ih =>
    rw [List.flatMap_cons, List.find?_cons]
    cases (ahead.ends mode place).isEmpty with
    | true => simpa using ih
    | false => rfl

private def firstBefore (mode : Mode) (front ahead : Regex) (cursor : Cursor) : Option Match :=
  ((front.ends mode cursor).find? fun place => !((Regex.seq ahead .empty).ends mode place).isEmpty).map (⟨cursor, ·⟩)

private theorem map_whole_eq_matched (plan : Plan) (cursor : Cursor) :
    (plan.matchAt? mode cursor).map (·.whole) = matched (plan.ways mode 0 [.start cursor]) := by
  unfold Plan.matchAt? matched
  cases plan.ways mode 0 [.start cursor] with
  | nil => rfl
  | cons state states => cases found : state.groups.lookup 0 <;> simp [found]

section Framed

variable {front ahead : Regex} (steady : front.isSteady) (steady' : (Regex.seq ahead .empty).isSteady)

include steady steady'

private theorem matched_whole_framed (straight : Straight (.whole (.seq (.capture none front) (.seq ahead .empty))))
    (cursor : Cursor) :
    matched ((Plan.whole (.seq (.capture none front) (.seq ahead .empty))).ways mode 0 [.start cursor]) =
      firstBefore mode front ahead cursor := by
  have straight := straight _ (List.mem_singleton_self _)
  simp only [hasReversedBounds, Bool.or_eq_false_iff] at straight
  have group : Follows cursor.text false (front.ways mode 1 none) (front.ends mode) :=
    ways_follows steady straight.1 Nat.one_pos
  have after : Follows cursor.text false (ways mode (.seq ahead .empty) (0 + (front.groupCount + 1)) none) _ :=
    ways_follows steady' (by simp [hasReversedBounds, straight.2.1]) (Nat.add_pos_right 0 (Nat.succ_pos _))
  rw [matched_whole]
  have frames := frames_capture group (forward_ends mode front)
  exact matched_of_follows frames (forward_ends mode front) after.weaken rfl

private theorem matched_planFor_framed (straight : Straight
      ((Regex.seq (.capture none front) (.seq ahead .empty)).planFor .own true)) (cursor : Cursor) :
    matched (((Regex.seq (.capture none front) (.seq ahead .empty)).planFor .own true).ways mode 0 [.start cursor]) =
      firstBefore mode front ahead cursor := by
  have inSequence {one other : Plan} (frames : Frames cursor.text false (one.ways mode 0) (front.ends mode))
      (inner : 0 < one.groupCount)
      (follows : ∀ group, 0 < group →
        Follows cursor.text true (other.ways mode group) (ends mode (.seq ahead .empty))) :
      matched ((Plan.seq one other).ways mode 0 [.start cursor]) = _ :=
    matched_of_follows frames (forward_ends mode front) (follows _ (Nat.add_pos_right 0 inner)) rfl
  have rest {position : Position} (straight : Straight ((Regex.seq ahead .empty).planFor position true))
      (group : Nat) (inner : 0 < group) :
      Follows cursor.text true (((Regex.seq ahead .empty).planFor position true).ways mode group) _ :=
    planFor_follows steady' straight inner
  unfold planFor at straight ⊢
  split at straight
  next plain =>
    rw [if_pos plain]
    exact matched_whole_framed steady steady' straight cursor
  next some =>
    rw [if_neg some]
    simp only at straight ⊢
    split at straight
    next fixed =>
      rw [if_pos fixed]
      exact matched_whole_framed steady steady' straight cursor
    next =>
      rw [if_neg (by assumption)]
      split at straight
      next leading =>
        rw [if_pos leading]
        simp only [Bool.and_eq_true, decide_eq_true_eq] at leading
        obtain ⟨first, later⟩ := straight_seq.mp straight
        exact inSequence (frames_whole_capture none steady first fun _ => leading.2) (Nat.succ_pos _) (rest later)
      next apart =>
        rw [if_neg apart]
        obtain ⟨first, later⟩ := straight_seq.mp straight
        refine inSequence (frames_planFor none steady first) ?_ (rest later)
        exact Nat.succ_pos _

end Framed

theorem map_whole_matchAt? {regex : Regex} (steady : regex.isSteady) (straight : Straight regex.plan)
    (cursor : Cursor) :
    (regex.plan.matchAt? mode cursor).map (·.whole) = (regex.ends mode cursor).head?.map (⟨cursor, ·⟩) := by
  rw [map_whole_eq_matched]
  unfold plan at straight ⊢
  rcases framed_cases regex with frame | ⟨front, ahead, same, frame⟩
  · rw [frame] at straight ⊢
    exact matched_of_frames (frames_planFor none steady straight) rfl
  · have both : front.isSteady ∧ ahead.isSteady := by simpa [same.isSteady_eq, isSteady] using steady
    have next : (Regex.seq ahead .empty).isSteady := by simpa [isSteady] using both.2
    rw [head?_ends_look same]
    rw [frame] at straight ⊢
    exact matched_planFor_framed both.1 next straight cursor

def leftmost (lead : Cursor → List Cursor) (before : List Char) : Text → Option Match
  | [] => (lead ⟨before, []⟩).head?.map (⟨⟨before, []⟩, ·⟩)
  | c :: rest =>
    ((lead ⟨before, c :: rest⟩).head?.map (⟨⟨before, c :: rest⟩, ·⟩)).or (leftmost lead (c :: before) rest)

theorem leftmost_isSome (lead : Cursor → List Cursor) (before : List Char) (text : Text) :
    (leftmost lead before text).isSome ↔
      ∃ front back, text = front ++ back ∧ lead ⟨front.reverse ++ before, back⟩ ≠ [] := by
  induction text generalizing before with
  | nil => simp [leftmost, List.append_eq_nil_iff]
  | cons c rest ih =>
    simp only [leftmost, Option.isSome_or, Option.isSome_map, Bool.or_eq_true, ih, List.isSome_head?]
    constructor
    · rintro (here | ⟨front, back, rfl, leads⟩)
      · exact ⟨[], c :: rest, rfl, by simpa using here⟩
      · exact ⟨c :: front, back, rfl, by simpa using leads⟩
    · rintro ⟨_ | ⟨c', front⟩, back, same, leads⟩
      · obtain rfl : c :: rest = back := same
        exact .inl (by simpa using leads)
      · obtain ⟨rfl, rfl⟩ := List.cons.inj same
        exact .inr ⟨front, back, rfl, by simpa using leads⟩

theorem map_whole_search? {regex : Regex} (steady : regex.isSteady) (straight : Straight regex.plan) (cursor : Cursor) :
    (regex.search? mode cursor).map (·.whole) = leftmost (regex.ends mode) cursor.before cursor.rest := by
  obtain ⟨before, rest⟩ := cursor
  unfold Regex.search? Plan.search?
  simp only
  induction rest generalizing before with
  | nil => exact map_whole_matchAt? steady straight ⟨before, []⟩
  | cons c rest ih =>
    rw [leftmost, ← map_whole_matchAt? steady straight, ← ih, Plan.searchFrom?]
    cases regex.plan.matchAt? mode ⟨before, c :: rest⟩ <;> rfl

/-- Which spans are found depends only on the spans of single searches. -/
theorem matchesFrom_congr {one other : Plan} {mode : Mode}
    (same : ∀ cursor, (one.search? mode cursor).map (·.whole) = (other.search? mode cursor).map (·.whole))
    (limit : Nat) (cursor : Cursor) (touching : Bool) :
    one.matchesFrom mode limit cursor touching = other.matchesFrom mode limit cursor touching := by
  induction limit generalizing cursor touching with
  | zero => rfl
  | succ limit ih =>
    have here := same cursor
    simp only [Plan.matchesFrom]
    cases found : one.search? mode cursor with
    | none =>
      rw [found, Option.map_none, eq_comm, Option.map_eq_none_iff] at here
      rw [here]
    | some match' =>
      rw [found] at here
      obtain ⟨other', found', whole⟩ := Option.map_eq_some_iff.mp here.symm
      obtain ⟨span, groups⟩ := match'
      obtain ⟨span', groups'⟩ := other'
      obtain rfl : span' = span := whole
      simp only [found', ih]

end FluentPattern.Proofs.Searching

namespace FluentPattern.Pattern
open Proofs.Planning Proofs.Searching

/-- No part of a compiled pattern that is left to itself has reversed bounds. -/
theorem straight_plan (pattern : Pattern) : Straight pattern.regex.plan := by
  intro regex member
  have fits := (Regex.limitFault?_eq_none_iff.mp pattern.within_limits).2 regex member
  exact (Regex.automatonFault?_eq_none_iff.mp fits).1

/-- The first match starts at the first place that leads anywhere. -/
theorem find?_eq_leftmost {pattern : Pattern} (steady : pattern.regex.isSteady) (haystack : Text) :
    pattern.find? haystack = leftmost (pattern.regex.ends pattern.mode) [] haystack :=
  map_whole_search? steady pattern.straight_plan (.start haystack)

theorem isMatch_iff {pattern : Pattern} (steady : pattern.regex.isSteady) (haystack : Text) :
    pattern.isMatch haystack ↔
      ∃ front back, haystack = front ++ back ∧ pattern.regex.ends pattern.mode ⟨front.reverse, back⟩ ≠ [] := by
  have found : pattern.isMatch haystack = (pattern.find? haystack).isSome := by simp [isMatch, find?]
  rw [found, find?_eq_leftmost steady, leftmost_isSome]
  simp

structure SameSpans (one other : Pattern) : Prop where
  isMatch : ∀ haystack, one.isMatch haystack = other.isMatch haystack
  find? : ∀ haystack, one.find? haystack = other.find? haystack
  findAll : ∀ haystack, one.findAll haystack = other.findAll haystack
  replace : ∀ haystack replacement, one.replace haystack replacement = other.replace haystack replacement

theorem sameSpans_of_search? {one other : Pattern} (flags : one.flags = other.flags)
    (same : ∀ cursor, (one.regex.search? one.mode cursor).map (·.whole) =
      (other.regex.search? other.mode cursor).map (·.whole)) : SameSpans one other := by
  have modes : one.mode = other.mode := by simp [mode, flags]
  have found : ∀ haystack, one.find? haystack = other.find? haystack := fun haystack => same (.start haystack)
  have all : ∀ haystack, one.findAll haystack = other.findAll haystack := by
    intro haystack
    rw [modes] at same
    have spans := matchesFrom_congr same (haystack.length + 1) (.start haystack) false
    have global : one.isGlobal = other.isGlobal := by simp [isGlobal, flags]
    rw [findAll, findAll, global, found, modes, Regex.allMatches, Regex.allMatches, spans]
  refine ⟨fun haystack => ?_, found, all, fun haystack replacement => by rw [replace, replace, all]⟩
  have isSome (pattern : Pattern) : pattern.isMatch haystack = (pattern.find? haystack).isSome := by
    simp [Pattern.isMatch, Pattern.find?]
  rw [isSome, isSome, found]

/-- Patterns whose regexes are regroupings of each other find the same spans. -/
theorem sameSpans_of_regrouped {one other : Pattern} (flags : one.flags = other.flags)
    (same : Regex.Regrouped one.regex other.regex) (steady : one.regex.isSteady) : SameSpans one other := by
  refine sameSpans_of_search? flags fun cursor => ?_
  have steady' : other.regex.isSteady := same.isSteady_eq ▸ steady
  have modes : one.mode = other.mode := by simp [mode, flags]
  rw [map_whole_search? steady one.straight_plan, map_whole_search? steady' other.straight_plan, same.ends_eq, modes]

end FluentPattern.Pattern
