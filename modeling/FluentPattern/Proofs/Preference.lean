import FluentPattern.Proofs.PassLimits

/-! When a search that follows all states together goes the way of the preferred ones. What comes next in a regex takes
the first place that it can go on from, so two lists of states are as good as each other if each test of places picks
the same out of both. Only places and what group number zero captured can be told apart; that is what the span of a
match depends on. -/

namespace FluentPattern.Proofs.Preference
open Regex PassLimits

/-- A place, and what group number zero captured on the way there. -/
abbrev Spot := Cursor × Option Match

def spot (state : State) : Spot := (state.cursor, state.groups.lookup 0)

def carry (lead : Cursor → List Cursor) (spot : Spot) : List Spot := (lead spot.1).map (·, spot.2)

def pick (test : Cursor → Bool) (spots : List Spot) : Option Spot := spots.find? (test ·.1)

def seek (test : Cursor → Bool) (lead : Cursor → List Cursor) (spot : Spot) : Option Spot := pick test (carry lead spot)

def Within (text : Text) (states : List State) : Prop := ∀ state ∈ states, state.cursor.text = text

/-- Whether what is done to states prefers the places that a part leads to, in the same order. In a final part nothing
comes next, so only the very first place matters. -/
def Follows (text : Text) (final : Bool) (pass : List State → List State) (lead : Cursor → List Cursor) : Prop :=
  ∀ states, Within text states → ∀ test : Cursor → Bool, (final → ∀ cursor, test cursor) →
    pick test ((pass states).map spot) = (states.map spot).findSome? (seek test lead)

theorem seek_eq (test : Cursor → Bool) (lead : Cursor → List Cursor) (spot : Spot) :
    seek test lead spot = ((lead spot.1).find? test).map (·, spot.2) := by
  simp only [seek, pick, carry, List.find?_map, Function.comp_def]

theorem findSome?_flatMap {α β γ : Type} (items : List α) (branch : α → List β) (look : β → Option γ) :
    (items.flatMap branch).findSome? look = items.findSome? fun item => (branch item).findSome? look := by
  induction items with
  | nil => rfl
  | cons item items ih =>
    rw [List.flatMap_cons, List.findSome?_append, ih, List.findSome?_cons]
    cases (branch item).findSome? look <;> rfl

/-- What a list of spots offers to the next part depends only on what the tests of places pick out of it. -/
theorem findSome?_seek {one other : List Spot} (same : ∀ test, pick test one = pick test other)
    (test : Cursor → Bool) (lead : Cursor → List Cursor) :
    one.findSome? (seek test lead) = other.findSome? (seek test lead) := by
  have way : (fun spot : Spot => (seek test lead spot).isSome) = fun spot => ((lead spot.1).find? test).isSome := by
    funext spot
    simp [seek_eq]
  have first := same fun cursor => ((lead cursor).find? test).isSome
  rw [findSome?_eq_bind, findSome?_eq_bind, way]
  exact congrArg (Option.bind · (seek test lead)) first

theorem pick_flatMap (test : Cursor → Bool) {α : Type} (items : List α) (branch : α → List Spot) :
    pick test (items.flatMap branch) = items.findSome? fun item => pick test (branch item) := List.find?_flatMap ..

theorem pick_append (test : Cursor → Bool) (one other : List Spot) :
    pick test (one ++ other) = (pick test one).or (pick test other) := List.find?_append ..

theorem seek_flatMap (test : Cursor → Bool) (lead next : Cursor → List Cursor) (spot : Spot) :
    (carry lead spot).findSome? (seek test next) = seek test (fun cursor => (lead cursor).flatMap next) spot := by
  simp only [seek_eq, carry, List.findSome?_map, Function.comp_def, List.find?_flatMap]
  induction lead spot.1 with
  | nil => rfl
  | cons place places ih => cases found : (next place).find? test <;> simp [found, ih]

section Reached

variable {lead : Cursor → List Cursor} {states after : List State}

theorem exists_origin
    (same : ∀ test, pick test (after.map spot) = (states.map spot).findSome? (seek test lead)) {reached : State}
    (member : reached ∈ after) : ∃ state ∈ states, reached.cursor ∈ lead state.cursor := by
  have found : (pick (· == reached.cursor) (after.map spot)).isSome := by
    simp only [pick, List.find?_isSome, List.mem_map]
    exact ⟨spot reached, ⟨reached, member, rfl⟩, by simp [spot]⟩
  rw [same, List.findSome?_isSome_iff] at found
  obtain ⟨_, inside, some⟩ := found
  obtain ⟨state, present, rfl⟩ := List.mem_map.mp inside
  simp only [seek_eq, Option.isSome_map, List.find?_isSome] at some
  obtain ⟨place, leads, equal⟩ := some
  exact ⟨state, present, by rwa [← eq_of_beq equal]⟩

theorem within_of_pick
    (same : ∀ test, pick test (after.map spot) = (states.map spot).findSome? (seek test lead)) (forward : Forward lead)
    {text : Text} (within : Within text states) : Within text after := by
  intro reached member
  obtain ⟨state, present, leads⟩ := exists_origin same member
  exact (forward _ _ leads).1.trans (within state present)

end Reached

variable {text : Text} {final : Bool} {pass next : List State → List State} {lead lead' : Cursor → List Cursor}

namespace Follows

theorem within (follows : Follows text false pass lead) (forward : Forward lead) {states : List State}
    (inside : Within text states) : Within text (pass states) :=
  within_of_pick (fun test => follows states inside test (by simp)) forward inside

theorem weaken (follows : Follows text false pass lead) : Follows text final pass lead :=
  fun states within test _ => follows states within test (by simp)

theorem congr (follows : Follows text final pass lead)
    (same : ∀ cursor, cursor.text = text → ∀ test, (lead cursor).find? test = (lead' cursor).find? test) :
    Follows text final pass lead' := by
  intro states within test anything
  rw [follows states within test anything, List.findSome?_map, List.findSome?_map]
  refine findSome?_congr fun state member => ?_
  have equal : (lead (spot state).1).find? test = (lead' (spot state).1).find? test := same _ (within state member) test
  simp only [Function.comp_apply, seek_eq, equal]

theorem single (follows : Follows text final pass lead) {state : State} (within : state.cursor.text = text)
    {test : Cursor → Bool} (anything : final → ∀ cursor, test cursor) :
    pick test ((pass [state]).map spot) = seek test lead (spot state) := by
  simpa [List.findSome?] using follows [state] (by simpa [Within] using within) test anything

theorem findSome? (follows : Follows text false pass lead) {states : List State} (inside : Within text states)
    (test : Cursor → Bool) (lead' : Cursor → List Cursor) :
    ((pass states).map spot).findSome? (seek test lead') =
      (states.map spot).findSome? (seek test fun cursor => (lead cursor).flatMap lead') := by
  have first : ∀ test, pick test ((pass states).map spot) = pick test ((states.map spot).flatMap (carry lead)) :=
    fun test => by rw [follows states inside test (by simp), pick_flatMap]; rfl
  rw [findSome?_seek first, findSome?_flatMap]
  exact findSome?_congr fun spot _ => seek_flatMap test lead lead' spot

theorem seq (one : Follows text false pass lead) (forward : Forward lead) (other : Follows text final next lead') :
    Follows text final (fun states => next (pass states)) fun cursor => (lead cursor).flatMap lead' := by
  intro states inside test anything
  rw [other _ (one.within forward inside) test anything, one.findSome? inside]

end Follows

theorem pick_stay (test : Cursor → Bool) (spots : List Spot) :
    pick test spots = spots.findSome? (seek test fun cursor => [cursor]) := by
  have alone := pick_flatMap test spots fun spot => [spot]
  rw [List.flatMap_singleton'] at alone
  exact alone

private theorem pick_freshFrom {states : List State} (within : Within text states) (marks : Marks)
    (test : Cursor → Bool) :
    pick test ((freshFrom marks states).map spot) =
      pick (fun cursor => test cursor && !marks.has cursor.rest.length) (states.map spot) := by
  induction states generalizing marks with
  | nil => rfl
  | cons head rest ih =>
    have below := fun state member => within state (List.mem_cons_of_mem head member)
    have place : head.left = head.cursor.rest.length := head.left_eq
    simp only [freshFrom, place]
    split
    next marked =>
      rw [ih below]
      simp [pick, spot, marked]
    next unmarked =>
      cases passed : test head.cursor with
      | true => simp [pick, spot, passed, unmarked]
      | false =>
        have later := ih below (marks.add head.cursor.rest.length)
        simp only [List.map_cons, pick, spot, List.find?_cons, passed, Bool.false_and] at later ⊢
        rw [later]
        refine List.find?_congr fun other member => ?_
        obtain ⟨state, present, rfl⟩ := List.mem_map.mp member
        by_cases same : state.cursor.rest.length = head.cursor.rest.length
        · have equal : state.cursor = head.cursor :=
            cursor_eq ((below state present).trans (within head List.mem_cons_self).symm) same
          simp [spot, equal, passed]
        · simp [spot, beq_false_of_ne same]

/-- Keeping the first state of each place changes nothing for what comes next. -/
theorem pick_fresh {states : List State} (within : Within text states) (test : Cursor → Bool) :
    pick test ((fresh states).map spot) = pick test (states.map spot) := by
  unfold fresh
  split
  · rfl
  · rfl
  · rw [pick_freshFrom within]
    simp

end FluentPattern.Proofs.Preference
