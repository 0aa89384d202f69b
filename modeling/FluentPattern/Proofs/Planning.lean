import FluentPattern.Proofs.Matching

/-! Leaving the plain parts of a regex to themselves changes no span. A part that is left to itself goes its first way
and no other. Nothing is lost where nothing comes next, and nothing where all ways read the same number of characters,
for then they all lead to one place. -/

namespace FluentPattern.Proofs.Planning
open Regex PassLimits Preference Repetitions Matching

variable {text : Text} {final : Bool} {mode : Mode}

private theorem length_of_passes {pass : Cursor → List Cursor} {size : Nat}
    (each : ∀ {cursor place : Cursor}, place ∈ pass cursor → place.rest.length + size = cursor.rest.length)
    (count : Nat) {cursor place : Cursor} (member : place ∈ passes pass count cursor) :
    place.rest.length + size * count = cursor.rest.length := by
  induction count generalizing cursor with
  | zero =>
    rw [List.mem_singleton.mp member]
    rfl
  | succ count ih =>
    obtain ⟨middle, one, other⟩ := List.mem_flatMap.mp member
    have first := each one
    have rest := ih other
    rw [Nat.mul_succ]
    omega

theorem length_of_hasFixedSize {regex : Regex} (fixed : regex.hasFixedSize) {cursor place : Cursor}
    (member : place ∈ regex.ends mode cursor) : place.rest.length + regex.minSize = cursor.rest.length := by
  induction regex generalizing cursor place with
  | empty =>
    rw [List.mem_singleton.mp member]
    rfl
  | char set =>
    obtain ⟨before, _ | ⟨c, rest⟩⟩ := cursor
    · cases member
    · simp only [ends] at member
      split at member
      · rw [List.mem_singleton.mp member]
        rfl
      · cases member
  | atStart | atEnd | look =>
    simp only [ends] at member
    split at member <;> simp_all [minSize]
  | seq first second ihFirst ihSecond =>
    simp only [hasFixedSize, Bool.and_eq_true] at fixed
    obtain ⟨middle, one, other⟩ := List.mem_flatMap.mp member
    have first := ihFirst fixed.1 one
    have second := ihSecond fixed.2 other
    simp only [minSize]
    omega
  | alt first second ihFirst ihSecond =>
    simp only [hasFixedSize, Bool.and_eq_true, beq_iff_eq] at fixed
    have same : min first.minSize second.minSize = first.minSize := by omega
    rw [minSize, same]
    rcases List.mem_append.mp member with member | member
    · exact ihFirst fixed.1.1 member
    · rw [fixed.2]
      exact ihSecond fixed.1.2 member
  | capture _ body ih => exact ih fixed member
  | commit body ih => exact ih fixed (List.mem_of_mem_head? (Option.mem_toList.mp member))
  | loop body bounds greed ih =>
    simp only [hasFixedSize, Bool.and_eq_true, beq_iff_eq] at fixed
    simp only [ends, loopEnds, fixed.2, Nat.min_self, Nat.sub_self] at member
    obtain ⟨middle, one, other⟩ := List.mem_flatMap.mp member
    rw [List.mem_singleton.mp other]
    exact length_of_passes (ih fixed.1) bounds.least one

/-- The first way of a part is as good as all its ways where they lead to one place. -/
theorem find?_head? {lead : Cursor → List Cursor} {cursor : Cursor}
    (one : ∀ place ∈ lead cursor, ∀ other ∈ lead cursor, place = other) (test : Cursor → Bool) :
    (lead cursor).head?.toList.find? test = (lead cursor).find? test := by
  cases places : lead cursor with
  | nil => rfl
  | cons place others =>
    rw [places] at one
    cases passed : test place with
    | true => simp [passed]
    | false =>
      have none : others.find? test = none := by
        refine List.find?_eq_none.mpr fun other member => ?_
        rw [← one place List.mem_cons_self other (List.mem_cons_of_mem _ member), passed]
        simp
      simp [passed, none]

theorem forward_head? (mode : Mode) (regex : Regex) : Forward fun cursor => (regex.ends mode cursor).head?.toList :=
  forward_ends mode (.commit regex)

def Alone (final : Bool) (regex : Regex) : Prop := final = false → regex.hasFixedSize

theorem find?_of_alone {regex : Regex} (alone : Alone final regex) {test : Cursor → Bool}
    (anything : final → ∀ cursor, test cursor) (cursor : Cursor) :
    (regex.ends mode cursor).head?.toList.find? test = (regex.ends mode cursor).find? test := by
  cases final with
  | true => cases places : regex.ends mode cursor <;> simp [anything]
  | false =>
    refine find?_head? (fun place member other member' => ?_) test
    have first := length_of_hasFixedSize (alone rfl) member
    have second := length_of_hasFixedSize (alone rfl) member'
    obtain ⟨sameText, _⟩ := forward_ends mode regex cursor place member
    obtain ⟨sameText', _⟩ := forward_ends mode regex cursor other member'
    exact cursor_eq (sameText.trans sameText'.symm) (by omega)

/-- Whether no part that a plan leaves to itself has reversed bounds. -/
def Straight (plan : Plan) : Prop := ∀ regex ∈ plan.wholes, regex.hasReversedBounds = false

theorem straight_seq {one other : Plan} : Straight (.seq one other) ↔ Straight one ∧ Straight other :=
  List.forall_mem_append

theorem straight_alt {one other : Plan} : Straight (.alt one other) ↔ Straight one ∧ Straight other :=
  List.forall_mem_append

theorem whole_follows {regex : Regex} (steady : regex.isSteady) (straight : Straight (.whole regex))
    (alone : Alone final regex) {group : Nat} (inner : 0 < group) :
    Follows text final ((Plan.whole regex).ways mode group) (regex.ends mode) := by
  have ways : Follows text false (regex.ways mode group none) (regex.ends mode) :=
    ways_follows steady (straight regex (List.mem_singleton_self regex)) inner
  have first : Follows text final ((Plan.whole regex).ways mode group) fun cursor =>
      (regex.ends mode cursor).head?.toList :=
    follows_whole ways.weaken inner regex.groupCount (forward_head? mode regex)
  intro states within test anything
  rw [first states within test anything, List.findSome?_map, List.findSome?_map]
  refine findSome?_congr fun state _ => ?_
  simp only [Function.comp_apply, seek_eq]
  exact congrArg (Option.map _) (find?_of_alone alone anything (spot state).1)

theorem loop_follows {pass : List State → List State} {lead : Cursor → List Cursor} {bounds : Bounds}
    {greed : Greed} {canBeEmpty : Bool} (forward : Forward lead) (steady : bounds.most.isSome || !canBeEmpty)
    (follows : Follows text (final && bounds = Repetition.optional.bounds) pass lead) :
    Follows text final (Plan.loopWays bounds greed canBeEmpty pass) (loopEnds bounds greed lead) := by
  intro states within test anything
  by_cases once : final = true ∧ bounds = Repetition.optional.bounds
  · obtain ⟨rfl, rfl⟩ := once
    have one : min (1 - 0) (passLimit states) = 1 := by
      simp only [passLimit]
      omega
    have follows : Follows text true pass lead := follows
    have only : Follows text true (climbAll greed (fun _ => some) (fun _ => pass) 1 0) (upTo greed lead 1) :=
      once_follows (fun _ _ => rfl) (fun _ => follows) 0
    have shape : loopEnds Repetition.optional.bounds greed lead = upTo greed lead 1 := by
      funext cursor
      simp [loopEnds, Repetition.bounds, passes]
    rw [shape, ← only states within test anything]
    simp [Plan.loopWays, Repetition.bounds, one, advance]
  · have all : Follows text false pass lead := by
      have not : (final && decide (bounds = Repetition.optional.bounds)) = false := by
        simpa using once
      rwa [not] at follows
    unfold Plan.loopWays loopEnds
    cases limit : bounds.most with
    | some most =>
      exact (counted_follows forward (fun _ _ => rfl) (fun _ => all) (min bounds.least most) (most - bounds.least)
        (fun states => min (min bounds.least most) (passLimit states))).weaken states within test anything
    | none =>
      obtain rfl : canBeEmpty = false := by simpa [limit] using steady
      exact (endless_follows forward (fun _ => rfl) (fun _ => all) all bounds.least).weaken states within test anything

private theorem follows_of_whole {regex : Regex} {position : Position}
    (plan : regex.planFor position final = .whole regex) (steady : regex.isSteady)
    (straight : Straight (regex.planFor position final)) (alone : Alone final regex) {group : Nat} (inner : 0 < group) :
    Follows text final ((regex.planFor position final).ways mode group) (regex.ends mode) := by
  rw [plan] at straight ⊢
  exact whole_follows steady straight alone inner

private theorem follows_of_plain {regex : Regex} {position : Position} (plain : (final && regex.isPlain) = true)
    (steady : regex.isSteady) (straight : Straight (regex.planFor position final)) {group : Nat} (inner : 0 < group) :
    Follows text final ((regex.planFor position final).ways mode group) (regex.ends mode) := by
  refine follows_of_whole ?_ steady straight (fun some => by simp [some] at plain) inner
  unfold planFor
  rw [if_pos plain]

/-- Going by a plan leads where the regex leads. -/
theorem planFor_follows {regex : Regex} (steady : regex.isSteady) {position : Position}
    (straight : Straight (regex.planFor position final)) {group : Nat} (inner : 0 < group) :
    Follows text final ((regex.planFor position final).ways mode group) (regex.ends mode) := by
  -- Parts are planned for in other positions, with other groups before them, and not all of them are final.
  induction regex generalizing position final group with
  | empty | char | atStart | atEnd =>
    refine follows_of_whole ?_ steady straight (fun _ => rfl) inner
    unfold planFor
    exact ite_self _
  | seq first second ihFirst ihSecond =>
    by_cases plain : (final && (Regex.seq first second).isPlain) = true
    · exact follows_of_plain plain steady straight inner
    simp only [isSteady, Bool.and_eq_true] at steady
    unfold planFor at straight ⊢
    rw [if_neg plain] at straight ⊢
    simp only at straight ⊢
    split at straight
    next fixed =>
      rw [if_pos fixed]
      simp only [Bool.and_eq_true] at fixed
      refine whole_follows (by simp [isSteady, steady]) straight (fun _ => ?_) inner
      simp [hasFixedSize, fixed]
    next some =>
      rw [if_neg some]
      split at straight
      next leading =>
        rw [if_pos leading]
        simp only [Bool.and_eq_true, decide_eq_true_eq] at leading
        obtain ⟨front, back⟩ := straight_seq.mp straight
        exact (whole_follows steady.1 front (fun _ => leading.2) inner).seq (forward_ends mode first)
          (ihSecond steady.2 back (Nat.add_pos_left inner _))
      next later =>
        rw [if_neg later]
        obtain ⟨front, back⟩ := straight_seq.mp straight
        exact (ihFirst steady.1 front inner).seq (forward_ends mode first)
          (ihSecond steady.2 back (Nat.add_pos_left inner _))
  | alt first second ihFirst ihSecond =>
    by_cases plain : (final && (Regex.alt first second).isPlain) = true
    · exact follows_of_plain plain steady straight inner
    simp only [isSteady, Bool.and_eq_true] at steady
    unfold planFor at straight ⊢
    rw [if_neg plain] at straight ⊢
    obtain ⟨left, right⟩ := straight_alt.mp straight
    exact follows_alt (ihFirst steady.1 left inner) (ihSecond steady.2 right (Nat.add_pos_left inner _))
      (forward_ends mode (.alt first second))
  | loop body bounds greed ih =>
    by_cases plain : (final && (Regex.loop body bounds greed).isPlain) = true
    · exact follows_of_plain plain steady straight inner
    simp only [isSteady, Bool.and_eq_true] at steady
    unfold planFor at straight ⊢
    rw [if_neg plain] at straight ⊢
    exact loop_follows (forward_ends mode body) (by simpa [bne] using steady.1) (ih steady.2 straight inner)
  | look positive body ih =>
    by_cases plain : (final && (Regex.look positive body).isPlain) = true
    · simp [isPlain] at plain
    unfold planFor at straight ⊢
    rw [if_neg plain] at straight ⊢
    exact follows_look (ih steady straight inner) positive
  | capture name body ih =>
    by_cases plain : (final && (Regex.capture name body).isPlain) = true
    · exact follows_of_plain plain steady straight inner
    unfold planFor at straight ⊢
    rw [if_neg plain] at straight ⊢
    exact follows_capture (ih steady straight (Nat.succ_pos group)) (forward_ends mode body) inner
  | commit body ih =>
    by_cases plain : (final && (Regex.commit body).isPlain) = true
    · simp [isPlain] at plain
    unfold planFor at straight ⊢
    rw [if_neg plain] at straight ⊢
    exact follows_commit (ih steady straight inner) (forward_ends mode (.commit body))

end FluentPattern.Proofs.Planning
