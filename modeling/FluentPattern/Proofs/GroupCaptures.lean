import FluentPattern.Proofs.GroupLists
import FluentPattern.Proofs.Progress
import FluentPattern.Proofs.StraightBounds
import FluentPattern.Proofs.Words

/-! What groups capture. Whatever a group has captured, what stands before the group can read from where the match starts
to where the capture starts, and what is in the group from there to where the capture stops. This is told for any regex,
also for repetitions of what may read nothing; so it is told of where a regex can stop if it may pass any condition on
what must not come next. -/

namespace FluentPattern
namespace Proofs.GroupCaptures
open Regex PassLimits Matching Progress Words CaptureGroup

section Passes

variable {lead : Cursor → List Cursor} {greed : Greed} {cursor place : Cursor}

variable (forward : Forward lead)

include forward

theorem mem_upTo_reading {count : Nat} (member : place ∈ passes lead count cursor) :
    place ∈ upTo greed (reading lead) cursor.rest.length cursor := by
  rw [mem_upTo]
  induction count generalizing cursor with
  | zero => exact ⟨0, Nat.zero_le _, member⟩
  | succ count ih =>
    obtain ⟨middle, first, later⟩ := List.mem_flatMap.mp member
    obtain ⟨number, few, reads⟩ := ih later
    by_cases shorter : middle.rest.length < cursor.rest.length
    · have read : middle ∈ reading lead cursor := List.mem_filter.mpr ⟨first, decide_eq_true shorter⟩
      exact ⟨number + 1, by omega, List.mem_flatMap.mpr ⟨middle, read, reads⟩⟩
    · have shorter' := (forward cursor middle first).2
      obtain rfl := forward.eq_of_left first (by omega)
      exact ⟨number, few, reads⟩

/-- A repetition leads where any number of passes within its bounds leads. -/
theorem mem_loopEnds_of_passes {bounds : Bounds} (straight : bounds.reversed = false) {more : Nat}
    (few : ∀ most ∈ bounds.most, more ≤ most - bounds.least) (member : place ∈ passes lead (bounds.least + more) cursor) :
    place ∈ loopEnds bounds greed lead cursor := by
  obtain ⟨middle, first, later⟩ := mem_passes_add.mp member
  unfold loopEnds
  split
  next most limit =>
    have inOrder := Bounds.least_le straight limit
    rw [Nat.min_eq_left inOrder]
    exact List.mem_flatMap.mpr ⟨middle, first, mem_upTo.mpr ⟨more, few most limit, later⟩⟩
  next => exact List.mem_flatMap.mpr ⟨middle, first, mem_upTo_reading forward later⟩

end Passes

def Onward (lead : Cursor → List Cursor) (places : Cursor → Prop) (place : Cursor) : Prop :=
  ∃ cursor, places cursor ∧ place ∈ lead cursor

/-- Whether the groups from a number on may capture whatever can be read in them, starting from some places. -/
def Allows (allowed : Nat → Match → Prop) (mode : Mode) (places : Cursor → Prop) (number : Nat)
    (groups : List (CaptureGroup Regex)) : Prop :=
  ∀ index group, groups[index]? = some group → ∀ m : Match, Onward (group.before.leads mode) places m.start →
    m.stop ∈ group.body.leads mode m.start → allowed (number + index) m

/-- Whether a state is at one of some places, and its groups have captured only what they may. -/
structure At (allowed : Nat → Match → Prop) (places : Cursor → Prop) (state : State) : Prop where
  place : places state.cursor
  captured : ∀ capture ∈ state.groups, allowed capture.1 capture.2

/-- Whether what is done to states at some of the places leads where it should, and captures only what it may. -/
def Leads (allowed : Nat → Match → Prop) (places : Cursor → Prop) (pass : List State → List State)
    (lead : Cursor → List Cursor) : Prop :=
  ∀ starts : Cursor → Prop, (∀ cursor, starts cursor → places cursor) →
    Brings (At allowed starts) (At allowed (Onward lead starts)) pass

section Parts

variable {allowed : Nat → Match → Prop} {places starts more : Cursor → Prop} {pass next : List State → List State}
  {lead lead' : Cursor → List Cursor}

theorem Onward.mono {place : Cursor} (onward : Onward lead starts place) (within : ∀ cursor, starts cursor → places cursor) :
    Onward lead places place := by
  obtain ⟨cursor, from', leads⟩ := onward
  exact ⟨cursor, within cursor from', leads⟩

theorem At.mono {state : State} (at' : At allowed places state) (implies : ∀ cursor, places cursor → more cursor) :
    At allowed more state :=
  ⟨implies _ at'.place, at'.captured⟩

namespace Leads

theorem single (leads : Leads allowed places pass lead) {state : State} (at' : At allowed places state) :
    ∀ other ∈ pass [state], At allowed (· ∈ lead state.cursor) other := by
  have here : ∀ cursor, cursor = state.cursor → places cursor := by
    rintro _ rfl
    exact at'.place
  intro other member
  refine ((leads _ here).single ⟨rfl, at'.captured⟩ other member).mono fun cursor onward => ?_
  obtain ⟨_, rfl, leads⟩ := onward
  exact leads

theorem weaken (leads : Leads allowed places pass lead) (more : ∀ cursor, ∀ place ∈ lead cursor, place ∈ lead' cursor) :
    Leads allowed places pass lead' := by
  intro starts within
  refine (leads starts within).weaken fun state at' => at'.mono fun place onward => ?_
  obtain ⟨cursor, from', leads⟩ := onward
  exact ⟨cursor, from', more cursor place leads⟩

theorem seq (leads : Leads allowed places pass lead) (leads' : Leads allowed (Onward lead places) next lead') :
    Leads allowed places (fun states => next (pass states)) fun cursor => (lead cursor).flatMap lead' := by
  intro starts within
  have later := leads' (Onward lead starts) fun cursor onward => onward.mono within
  refine ((leads starts within).seq later).weaken fun state at' => at'.mono fun place onward => ?_
  obtain ⟨middle, ⟨cursor, from', first⟩, second⟩ := onward
  exact ⟨cursor, from', List.mem_flatMap.mpr ⟨middle, first, second⟩⟩

theorem fresh (leads : Leads allowed places pass lead) : Leads allowed places (fun states => fresh (pass states)) lead :=
  fun starts within => (leads starts within).fresh

end Leads

section Loops

variable {bounds : Bounds} {greed : Greed} {limit : Nat}

theorem onward_passes (forward : Forward lead) {number : Nat} {place : Cursor}
    (onward : Onward (passes lead number) starts place) : Onward (loopEnds ⟨0, none⟩ .greedy lead) starts place := by
  obtain ⟨cursor, from', member⟩ := onward
  rw [← Nat.zero_add number] at member
  exact ⟨cursor, from', mem_loopEnds_of_passes forward rfl nofun member⟩

theorem Leads.again (leads : Leads allowed (Onward (loopEnds ⟨0, none⟩ .greedy lead) places) pass lead)
    (forward : Forward lead) (within : ∀ cursor, starts cursor → places cursor) (number : Nat) :
    Brings (At allowed (Onward (passes lead number) starts)) (At allowed (Onward (passes lead (number + 1)) starts)) pass := by
  have known : ∀ place, Onward (passes lead number) starts place → Onward (loopEnds ⟨0, none⟩ .greedy lead) places place :=
    fun place onward => (onward_passes forward onward).mono within
  refine (leads _ known).weaken fun state at' => at'.mono fun place onward => ?_
  obtain ⟨middle, ⟨cursor, from', first⟩, last⟩ := onward
  refine ⟨cursor, from', mem_passes_add.mpr ⟨middle, first, ?_⟩⟩
  simpa [passes] using last

end Loops

end Parts

section Trees

variable {allowed : Nat → Match → Prop} {mode : Mode} {places : Cursor → Prop} {number : Nat}
  {groups : List (CaptureGroup Regex)}

namespace Allows

theorem append {first second : List (CaptureGroup Regex)}
    (allows : Allows allowed mode places number (first ++ second)) :
    Allows allowed mode places number first ∧ Allows allowed mode places (number + first.length) second := by
  constructor
  · intro index group member
    apply allows index group
    rw [List.getElem?_append_left (List.getElem?_eq_some_iff.mp member).1]
    exact member
  · intro index group member
    rw [Nat.add_assoc]
    apply allows (first.length + index) group
    rw [List.getElem?_append_right (Nat.le_add_right _ _), Nat.add_sub_cancel_left]
    exact member

end Allows

end Trees

end Proofs.GroupCaptures
end FluentPattern
