import FluentPattern.Proofs.Ends
import Mathlib.Data.List.Find

/-! Passes beyond a number that the rest of the text allows change nothing. A pass can read nothing and lead to the
place where it started, so the number of passes is not bounded by the text; but once there is one pass more than there
are characters left, another one at the same place only repeats what has been asked for before. -/

namespace FluentPattern.Proofs.PassLimits
open Regex

theorem findSome?_congr {α β : Type} {items : List α} {one other : α → Option β}
    (same : ∀ item ∈ items, one item = other item) : items.findSome? one = items.findSome? other := by
  induction items with
  | nil => rfl
  | cons item items ih =>
    rw [List.findSome?_cons, List.findSome?_cons, same item List.mem_cons_self,
      ih fun later member => same later (List.mem_cons_of_mem item member)]

theorem findSome?_eq_bind {α β : Type} (items : List α) (look : α → Option β) :
    items.findSome? look = (items.find? fun item => (look item).isSome).bind look := by
  induction items with
  | nil => rfl
  | cons item items ih => cases found : look item <;> simp [found, ih]

theorem findSome?_result {α β : Type} {items : List α} {look other : α → Option β}
    (known : ∀ item ∈ items, other item = look item ∨ other item = items.findSome? look) :
    items.findSome? other = items.findSome? look := by
  cases result : items.findSome? look with
  | none =>
    rw [result] at known
    rw [List.findSome?_eq_none_iff] at result ⊢
    intro item member
    rcases known item member with same | same
    · rw [same, result item member]
    · exact same
  | some value =>
    rw [result] at known
    obtain ⟨front, item, back, rfl, found, none⟩ := List.findSome?_eq_some_iff.mp result
    have here : other item = some value := by
      rcases known item (by simp) with same | same
      · rw [same, found]
      · exact same
    rw [List.findSome?_append, List.findSome?_cons, here]
    cases early : front.findSome? other with
    | none => rfl
    | some value' =>
      obtain ⟨item', member, gives⟩ := List.exists_of_findSome?_eq_some early
      rcases known item' (List.mem_append_left _ member) with same | same
      · rw [same, none item' member] at gives
        cases gives
      · rw [← gives, same]
        rfl

/-- What is picked after a number of passes, where a repetition may also stop before each of them. -/
def Counts (greed : Greed) (lead : Cursor → List Cursor) (stop : Cursor → Option Cursor)
    (picked : Nat → Cursor → Option Cursor) : Prop :=
  ∀ count cursor, picked (count + 1) cursor =
    match greed with
    | .greedy => ((lead cursor).findSome? (picked count)).or (stop cursor)
    | .lazy => (stop cursor).or ((lead cursor).findSome? (picked count))

namespace Counts

variable {greed : Greed} {lead : Cursor → List Cursor} {stop : Cursor → Option Cursor}
  {picked : Nat → Cursor → Option Cursor}

/-- Another pass changes nothing where it would change nothing at any other place that it leads to. -/
theorem again (counts : Counts greed lead stop picked) {count : Nat} {cursor : Cursor}
    (known : ∀ place ∈ lead cursor, place = cursor ∨ picked (count + 1) place = picked count place) :
    picked (count + 2) cursor = picked (count + 1) cursor := by
  have before := counts count cursor
  have after := counts (count + 1) cursor
  have result (same : picked (count + 1) cursor = (lead cursor).findSome? (picked count)) :
      (lead cursor).findSome? (picked (count + 1)) = (lead cursor).findSome? (picked count) := by
    refine findSome?_result fun place member => ?_
    rcases known place member with rfl | other
    · exact .inr same
    · exact .inl other
  cases stops : stop cursor with
  | none =>
    cases greed
    all_goals
      simp only [stops, Option.or_none, Option.none_or] at before after
      rw [after, before, result before]
  | some value =>
    cases greed with
    | lazy => simp only [stops, Option.some_or] at before after; rw [after, before]
    | greedy =>
      simp only [stops] at before after
      cases found : (lead cursor).findSome? (picked count) with
      | some value' =>
        rw [found, Option.some_or] at before
        rw [after, before, result (before.trans found.symm), found, Option.some_or]
      | none =>
        rw [found, Option.none_or] at before
        rw [after, before]
        cases found' : (lead cursor).findSome? (picked (count + 1)) with
        | none => rfl
        | some value' =>
          obtain ⟨place, member, gives⟩ := List.exists_of_findSome?_eq_some found'
          rcases known place member with rfl | other
          · rw [← gives, before]
            rfl
          · rw [other, List.findSome?_eq_none_iff.mp found place member] at gives
            cases gives

private theorem succ_eq (counts : Counts greed lead stop picked) (forward : Forward lead) {left : Nat}
    {cursor : Cursor} (here : cursor.rest.length = left) {count : Nat} (enough : left < count) :
    picked (count + 1) cursor = picked count cursor := by
  -- A pass that reads nothing comes back to this very place, so the induction is on what is left to read.
  induction left using Nat.strongRecOn generalizing cursor count with
  | ind left ih =>
    obtain ⟨count, rfl⟩ := Nat.exists_eq_succ_of_ne_zero (Nat.ne_zero_of_lt enough)
    refine counts.again fun place member => ?_
    by_cases same : place.rest.length = cursor.rest.length
    · exact .inl (forward.eq_of_left member same)
    · have less := (forward cursor place member).2
      exact .inr (ih place.rest.length (by omega) rfl (by omega))

/-- A limit of one pass more than there are characters left is none. -/
theorem min_eq (counts : Counts greed lead stop picked) (forward : Forward lead) {cursor : Cursor} {limit : Nat}
    (enough : cursor.rest.length < limit) (count : Nat) : picked (min count limit) cursor = picked count cursor := by
  have beyond : ∀ more, picked (limit + more) cursor = picked limit cursor := by
    intro more
    induction more with
    | zero => rfl
    | succ more ih => exact (counts.succ_eq forward rfl (Nat.lt_add_right more enough)).trans ih
  rcases Nat.le_total count limit with less | more
  · rw [Nat.min_eq_left less]
  · obtain ⟨extra, rfl⟩ := Nat.exists_eq_add_of_le more
    rw [Nat.min_eq_right more, beyond]

/-- Where every pass leads back to its start, one is as good as several. -/
theorem min_one_eq (counts : Counts greed lead stop picked) {cursor : Cursor}
    (still : ∀ place ∈ lead cursor, place = cursor) (count : Nat) :
    picked (min count 1) cursor = picked count cursor := by
  induction count with
  | zero => rfl
  | succ count ih =>
    cases count with
    | zero => rfl
    | succ count =>
      rw [Nat.min_eq_right (by omega)] at ih ⊢
      exact ih.trans (counts.again fun place member => .inl (still place member)).symm

end Counts

theorem counts_passes (lead : Cursor → List Cursor) (test : Cursor → Bool) :
    Counts .greedy lead (fun _ => none) fun count cursor => (passes lead count cursor).find? test := by
  intro count cursor
  simp [passes]

theorem counts_upTo (greed : Greed) (lead : Cursor → List Cursor) (test : Cursor → Bool) :
    Counts greed lead (fun cursor => [cursor].find? test)
      fun count cursor => (upTo greed lead count cursor).find? test := by
  intro count cursor
  cases greed with
  | greedy => simp only [upTo, List.find?_append, List.find?_flatMap]
  | lazy =>
    simp only [upTo, ← List.find?_flatMap, ← List.find?_append]
    rfl

theorem find?_limited_passes {lead : Cursor → List Cursor} (forward : Forward lead) {cursor : Cursor} {limit : Nat}
    (enough : cursor.rest.length < limit) (least : Nat) (next : Cursor → List Cursor) (test : Cursor → Bool) :
    ((passes lead (min least limit) cursor).flatMap next).find? test =
      ((passes lead least cursor).flatMap next).find? test := by
  rw [List.find?_flatMap, List.find?_flatMap, findSome?_eq_bind, findSome?_eq_bind]
  exact congrArg (Option.bind · _) ((counts_passes lead _).min_eq forward enough least)

/-- Both limits of a repetition with bounds can be cut down to what the rest of the text allows. -/
theorem find?_limited {lead : Cursor → List Cursor} (forward : Forward lead) (greed : Greed) {cursor : Cursor}
    {limit : Nat} (enough : cursor.rest.length < limit) (least most : Nat) (test : Cursor → Bool) :
    ((passes lead (min least limit) cursor).flatMap (upTo greed lead (min most limit))).find? test =
      ((passes lead least cursor).flatMap (upTo greed lead most)).find? test := by
  have later : ∀ place ∈ passes lead (min least limit) cursor,
      (upTo greed lead (min most limit) place).find? test = (upTo greed lead most place).find? test := by
    intro place member
    have less := (forward.passes _ cursor place member).2
    exact (counts_upTo greed lead test).min_eq forward (by omega) most
  rw [← find?_limited_passes forward enough least (upTo greed lead most) test]
  rw [List.find?_flatMap, List.find?_flatMap, findSome?_congr later]

end FluentPattern.Proofs.PassLimits
