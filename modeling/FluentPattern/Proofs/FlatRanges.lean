import FluentPattern.Builder.Step

/-! Flat lists of ranges. Such a list holds the two ends of one range after those of another, and is taken apart two by
two. Only the last item of a list could be left over, and a list where one is left over is refused as a whole; so a list
that is accepted tells its ranges, the ranges tell the list, and a step may as well be given either. -/

namespace FluentPattern

namespace Node

variable {items : List Text} {pairs : List (Text × Text)}

def rangeEnds (pairs : List (Text × Text)) : List Text := pairs.flatMap fun pair => [pair.1, pair.2]

@[simp] theorem rangeEnds_cons (pair : Text × Text) (pairs : List (Text × Text)) :
    rangeEnds (pair :: pairs) = pair.1 :: pair.2 :: rangeEnds pairs := List.flatMap_cons

theorem length_rangeEnds (pairs : List (Text × Text)) : (rangeEnds pairs).length = 2 * pairs.length := by
  induction pairs with
  | nil => rfl
  | cons pair pairs ih =>
    rw [rangeEnds_cons, List.length_cons, List.length_cons, List.length_cons, ih]
    omega

theorem mem_rangeEnds {pair : Text × Text} (member : pair ∈ pairs) :
    pair.1 ∈ rangeEnds pairs ∧ pair.2 ∈ rangeEnds pairs := by
  constructor <;> exact List.mem_flatMap.mpr ⟨pair, member, by simp⟩

theorem pairUp_rangeEnds (pairs : List (Text × Text)) : pairUp (rangeEnds pairs) = pairs := by
  induction pairs with
  | nil => rfl
  | cons pair pairs ih => rw [rangeEnds_cons, pairUp, ih]

/-- Without an item left over, no item is lost. -/
theorem rangeEnds_pairUp (even : items.length % 2 = 0) : rangeEnds (pairUp items) = items := by
  fun_induction pairUp items with
  | case1 first last rest ih =>
    have shorter : rest.length % 2 = 0 := by
      rw [List.length_cons, List.length_cons] at even
      omega
    rw [rangeEnds_cons, ih shorter]
  | case2 items short =>
    -- Fewer than two items are left, and an even number of them is none.
    match items with
    | [] => rfl
    | [item] => cases even
    | first :: last :: rest => exact (short first last rest rfl).elim

theorem rangePairs_eq_error_iff {error : Error} :
    rangePairs items = .error error ↔ items.length % 2 = 1 ∧ error = .oddRangeList items.length := by
  unfold rangePairs
  split
  next odd => simp [odd, eq_comm]
  next even => simp [even]

theorem rangePairs_eq_ok_iff : rangePairs items = .ok pairs ↔ rangeEnds pairs = items := by
  constructor
  · intro paired
    unfold rangePairs at paired
    split at paired
    next => cases paired
    next even =>
      cases paired
      exact rangeEnds_pairUp (Nat.mod_two_ne_one.mp even)
  · rintro rfl
    have even : ¬(rangeEnds pairs).length % 2 = 1 := by
      rw [length_rangeEnds]
      omega
    rw [rangePairs, if_neg even, pairUp_rangeEnds]

end Node

namespace Proofs.FlatRanges
open Node Builder

variable {builder : Builder} {items : List Text} {pairs : List (Text × Text)} {negated : Bool}

theorem apply_of_rangePairs (paired : rangePairs items = .ok pairs) :
    builder.apply (.flatRanges items negated) = builder.apply (.ranges pairs negated) := by
  simp only [apply, paired]

theorem apply_eq_error_iff {error : Error} :
    builder.apply (.flatRanges items negated) = .error error ↔ rangePairs items = .error error := by
  simp only [apply]
  cases rangePairs items <;> simp

/-- A flat list is read as ranges exactly if it is the list of their ends, in order and without any other item. The one
thing that is refused is an odd number of items, which is reported. A step with a flat list, of characters that are to
be in the ranges or of ones that are not, is refused with the same report, and is otherwise the step with the ranges. -/
theorem flat_list_as_ranges (items : List Text) :
    (∀ pairs, rangePairs items = .ok pairs ↔ rangeEnds pairs = items) ∧
    (∀ error, rangePairs items = .error error ↔ items.length % 2 = 1 ∧ error = .oddRangeList items.length) ∧
    ∀ (builder : Builder) (negated : Bool),
      (∀ error, builder.apply (.flatRanges items negated) = .error error ↔
        items.length % 2 = 1 ∧ error = .oddRangeList items.length) ∧
      ∀ pairs, rangePairs items = .ok pairs → ∃ next,
        builder.apply (.ranges pairs negated) = .ok next ∧ builder.apply (.flatRanges items negated) = .ok next := by
  refine ⟨fun pairs => rangePairs_eq_ok_iff, fun error => rangePairs_eq_error_iff,
    fun builder negated => ⟨fun error => ?_, fun pairs paired => ?_⟩⟩
  · rw [apply_eq_error_iff, rangePairs_eq_error_iff]
  · exact ⟨_, rfl, apply_of_rangePairs paired⟩

/-- Ends that are signs of classes, put behind a text, and the same list without its last one. -/
theorem flat_list_as_ranges_of_signs :
    let items : List Text := [['+'], ['-'], ['['], [']']]
    let pairs : List (Text × Text) := [(['+'], ['-']), (['['], [']'])]
    let letter := of (.text ['a'])
    rangePairs items = .ok pairs ∧
      (∃ next, letter.apply (.ranges pairs true) = .ok next ∧ letter.apply (.flatRanges items true) = .ok next ∧
        next.source = ['a', '[', '^', '+', '-', '\\', '-', '\\', '[', '-', '\\', ']', ']']) ∧
      letter.apply (.flatRanges items.dropLast true) = .error (.oddRangeList 3) := by
  intro items pairs letter
  obtain ⟨paired, -, taken⟩ := flat_list_as_ranges items
  have accepted : rangePairs items = .ok pairs := (paired pairs).mpr rfl
  obtain ⟨next, ranges, flat⟩ := (taken letter true).2 pairs accepted
  obtain ⟨-, -, shortened⟩ := flat_list_as_ranges items.dropLast
  obtain ⟨refused, -⟩ := shortened letter true
  refine ⟨accepted, ⟨next, ranges, flat, ?_⟩, ?_⟩
  · cases ranges
    rfl
  · exact (refused (.oddRangeList 3)).mpr (by decide)

end Proofs.FlatRanges
end FluentPattern
