import FluentPattern.Proofs.Preference
import FluentPattern.Regex.Passes
import Mathlib.Data.List.Basic

/-! Going through the passes of a repetition leads to the same places in the same order as the repetition does on its
own, although no place is dealt with twice. A place is left out only where all that it leads to has been reached before,
and then its turn comes too late to be preferred by any test. -/

namespace FluentPattern.Proofs.Repetitions
open Regex PassLimits Preference

variable {text : Text} {greed : Greed} {lead : Cursor → List Cursor}

def found (test : Cursor → Bool) (ended : List State) : Option Spot := pick test (ended.reverse.map spot)

def Reached (lead : Cursor → List Cursor) (cursor : Cursor) (ended : List State) : Prop :=
  ∀ place ∈ lead cursor, ∃ state ∈ ended, state.cursor = place

theorem Reached.mono {cursor : Cursor} {ended more : List State} (reached : Reached lead cursor ended)
    (keeps : ∀ state ∈ ended, state ∈ more) : Reached lead cursor more := by
  intro place leads
  obtain ⟨state, member, same⟩ := reached place leads
  exact ⟨state, keeps state member, same⟩

theorem found_cons (test : Cursor → Bool) (state : State) (ended : List State) :
    found test (state :: ended) = (found test ended).or (pick test [spot state]) := by
  simp [found, pick_append]

/-- What has been reached before is not preferred when it comes again. -/
theorem found_or_reached {state : State} {ended : List State} (reached : Reached lead state.cursor ended)
    (test : Cursor → Bool) : (found test ended).or (seek test lead (spot state)) = found test ended := by
  cases none : found test ended with
  | some spot => rfl
  | none =>
    simp only [Option.none_or, seek_eq, Option.map_eq_none_iff, List.find?_eq_none]
    intro place leads passed
    obtain ⟨before, member, rfl⟩ := reached place leads
    refine List.find?_eq_none.mp none (spot before) ?_ passed
    exact List.mem_map_of_mem (List.mem_reverse.mpr member)

theorem reached_of_found {state : State} {ended more : List State}
    (finds : ∀ test, found test more = (found test ended).or (seek test lead (spot state))) :
    Reached lead state.cursor more := by
  intro place leads
  have isFound : (found (· == place) more).isSome := by
    have sought : (seek (· == place) lead (spot state)).isSome := by
      simp only [seek_eq, Option.isSome_map, List.find?_isSome]
      exact ⟨place, leads, by simp⟩
    rw [finds, Option.isSome_or, sought, Bool.or_true]
  simp only [found, pick, List.find?_isSome, List.mem_map, List.mem_reverse] at isFound
  obtain ⟨_, ⟨reached, member, rfl⟩, same⟩ := isFound
  exact ⟨reached, member, eq_of_beq same⟩

theorem seek_upTo (test : Cursor → Bool) (count : Nat) (at' : Spot) :
    let onward := seek test (fun cursor => (lead cursor).flatMap (upTo greed lead count)) at'
    seek test (upTo greed lead (count + 1)) at' =
      match greed with
      | .greedy => onward.or (pick test [at'])
      | .lazy => (pick test [at']).or onward := by
  obtain ⟨cursor, whole⟩ := at'
  cases greed with
  | greedy => simp [seek, carry, upTo, pick_append]
  | lazy =>
    simp only [← pick_append, seek]
    simp [carry, upTo]

section Climbing

variable {choose? : Nat → State → Option State} {pass : Nat → List State → List State}

/-- Whether all that a marked place leads to has been reached, for each number of passes that may follow. -/
def Dealt (text : Text) (greed : Greed) (lead : Cursor → List Cursor) : Nat → List Marks → List State → Prop
  | 0, _, _ => True
  | count + 1, seen, ended =>
    (∀ cursor : Cursor, cursor.text = text → (seen.headD {}).has cursor.rest.length →
      Reached (upTo greed lead (count + 1)) cursor ended) ∧ Dealt text greed lead count seen.tail ended

theorem Dealt.mono {count : Nat} {seen : List Marks} {ended more : List State}
    (dealt : Dealt text greed lead count seen ended) (keeps : ∀ state ∈ ended, state ∈ more) :
    Dealt text greed lead count seen more := by
  induction count generalizing seen with
  | zero => trivial
  | succ count ih => exact ⟨fun cursor inside marked => (dealt.1 cursor inside marked).mono keeps, ih dealt.2⟩

structure Climbs (text : Text) (greed : Greed) (lead : Cursor → List Cursor) (count : Nat) (before after : Ascent)
    (adds : (Cursor → Bool) → Option Spot) : Prop where
  dealt : Dealt text greed lead count after.seen after.ended
  keeps : ∀ state ∈ before.ended, state ∈ after.ended
  finds : ∀ test, found test after.ended = (found test before.ended).or (adds test)

private theorem climbs_foldl {count : Nat} {work : State → Ascent → Ascent}
    (one : ∀ state ascent, state.cursor.text = text → Dealt text greed lead count ascent.seen ascent.ended →
      Climbs text greed lead count ascent (work state ascent) fun test =>
        seek test (upTo greed lead count) (spot state))
    {states : List State} (within : Within text states) {ascent : Ascent}
    (dealt : Dealt text greed lead count ascent.seen ascent.ended) :
    Climbs text greed lead count ascent (states.foldl (fun ascent state => work state ascent) ascent)
      fun test => (states.map spot).findSome? (seek test (upTo greed lead count)) := by
  induction states generalizing ascent with
  | nil => exact ⟨dealt, fun _ member => member, fun _ => by simp⟩
  | cons state states ih =>
    have first := one state ascent (within state List.mem_cons_self) dealt
    have rest := ih (fun other member => within other (List.mem_cons_of_mem state member)) first.dealt
    refine ⟨rest.dealt, fun other member => rest.keeps other (first.keeps other member), fun test => ?_⟩
    rw [List.foldl_cons, rest.finds, first.finds, Option.or_assoc, List.map_cons, List.findSome?_cons]
    cases seek test (upTo greed lead count) (spot state) <;> rfl

/-- The place of a state is marked once all that it leads to has been reached. -/
private theorem climbs_mark {count : Nat} {state : State} {ascent : Ascent} {seen : List Marks} {ended : List State}
    (within : state.cursor.text = text) (dealt : Dealt text greed lead (count + 1) ascent.seen ascent.ended)
    (below : Dealt text greed lead count seen ended) (keeps : ∀ state ∈ ascent.ended, state ∈ ended)
    (finds : ∀ test, found test ended =
      (found test ascent.ended).or (seek test (upTo greed lead (count + 1)) (spot state))) :
    Climbs text greed lead (count + 1) ascent ⟨(ascent.seen.headD {}).add state.left :: seen, ended⟩
      fun test => seek test (upTo greed lead (count + 1)) (spot state) := by
  refine ⟨⟨fun cursor inside marked => ?_, below⟩, keeps, finds⟩
  have place : state.left = state.cursor.rest.length := state.left_eq
  simp only [List.headD_cons, Marks.has_add, place, Bool.or_eq_true, beq_iff_eq] at marked
  rcases marked with same | before
  · rw [cursor_eq (inside.trans within.symm) same]
    exact reached_of_found finds
  · exact (dealt.1 cursor inside before).mono keeps

/-- A state after which up to `count` passes may follow. -/
theorem climbs (forward : Forward lead) (chooses : ∀ number state, choose? number state = some state)
    (follows : ∀ number, Follows text false (pass number) lead) (count number : Nat) (state : State) (ascent : Ascent)
    (within : state.cursor.text = text) (dealt : Dealt text greed lead count ascent.seen ascent.ended) :
    Climbs text greed lead count ascent (climb greed choose? pass count number state ascent)
      fun test => seek test (upTo greed lead count) (spot state) := by
  induction count generalizing number state ascent with
  | zero =>
    refine ⟨trivial, fun other member => List.mem_cons_of_mem state member, fun test => ?_⟩
    simp [climb, found_cons, seek, carry, upTo, spot]
  | succ count ih =>
    have inside : Within text [state] := by simpa [Within] using within
    have place : state.left = state.cursor.rest.length := state.left_eq
    have onward {ended : List State} (below : Dealt text greed lead count ascent.seen.tail ended) :
        Climbs text greed lead count ⟨ascent.seen.tail, ended⟩
          ((pass number [state]).foldl (fun ascent after => climb greed choose? pass count (number + 1) after ascent)
            ⟨ascent.seen.tail, ended⟩)
          fun test => seek test (fun cursor => (lead cursor).flatMap (upTo greed lead count)) (spot state) := by
      have all := climbs_foldl (ih (number + 1)) ((follows number).within forward inside)
        (show Dealt text greed lead count (Ascent.mk ascent.seen.tail ended).seen _ from below)
      refine ⟨all.dealt, all.keeps, fun test => ?_⟩
      rw [all.finds, (follows number).findSome? inside]
      simp
    simp only [climb]
    split
    next marked =>
      rw [place] at marked
      exact ⟨dealt, fun _ member => member, fun test => (found_or_reached (dealt.1 _ within marked) test).symm⟩
    next =>
      rw [chooses]
      cases greed with
      | greedy =>
        have above := onward dealt.2
        refine climbs_mark within dealt (above.dealt.mono fun other => List.mem_cons_of_mem state)
          (fun other member => List.mem_cons_of_mem state (above.keeps other member)) fun test => ?_
        rw [found_cons, above.finds, Option.or_assoc, seek_upTo]
      | lazy =>
        have above := onward (dealt.2.mono fun other => List.mem_cons_of_mem state)
        refine climbs_mark within dealt above.dealt
          (fun other member => above.keeps other (List.mem_cons_of_mem state member)) fun test => ?_
        rw [above.finds, found_cons, Option.or_assoc, seek_upTo]

theorem advance_follows (forward : Forward lead) (follows : ∀ number, Follows text false (pass number) lead)
    (count number : Nat) : Follows text false (advance pass count number) (passes lead count) := by
  induction count generalizing number with
  | zero => exact fun states _ test _ => pick_stay test (states.map spot)
  | succ count ih =>
    intro states within test anything
    simp only [advance]
    split
    next none => simp [List.isEmpty_iff.mp none, pick]
    next => exact (follows number).seq forward (ih (number + 1)) states within test anything

theorem climbAll_follows (greed : Greed) (forward : Forward lead)
    (chooses : ∀ number state, choose? number state = some state)
    (follows : ∀ number, Follows text false (pass number) lead) (count number : Nat) :
    Follows text false (climbAll greed choose? pass count number) (upTo greed lead count) := by
  intro states within test anything
  have empty : Dealt text greed lead count ({} : Ascent).seen ({} : Ascent).ended := by
    generalize ({} : Ascent).ended = ended
    have none : ∀ seen : List Marks, seen = [] → Dealt text greed lead count seen ended := by
      induction count with
      | zero => intro _ _; trivial
      | succ count ih => rintro _ rfl; exact ⟨fun _ _ marked => by simp at marked, ih [] rfl⟩
    exact none _ rfl
  have all := climbs_foldl (climbs forward chooses follows count number) within empty
  have finds : ∀ test, pick test (List.map spot _) = _ := all.finds
  have inside := within_of_pick finds (forward.upTo greed count) within
  rw [climbAll, pick_fresh inside]
  exact finds test

end Climbing

section Roaming

variable {choose? : State → Option State} {pass : List State → List State}

def anyNumber (greed : Greed) (lead : Cursor → List Cursor) (cursor : Cursor) : List Cursor :=
  upTo greed (reading lead) cursor.rest.length cursor

private theorem length_of_reading {cursor place : Cursor} (member : place ∈ reading lead cursor) :
    place.rest.length < cursor.rest.length := by
  simpa using (List.mem_filter.mp member).2

private theorem upTo_succ {count : Nat} {cursor : Cursor} (enough : cursor.rest.length ≤ count) :
    upTo greed (reading lead) (count + 1) cursor = upTo greed (reading lead) count cursor := by
  induction count generalizing cursor with
  | zero =>
    have none : reading lead cursor = [] := by
      refine List.eq_nil_iff_forall_not_mem.mpr fun place member => ?_
      have less := length_of_reading member
      omega
    cases greed <;> simp [upTo, none]
  | succ count ih =>
    have later : (reading lead cursor).flatMap (upTo greed (reading lead) (count + 1)) =
        (reading lead cursor).flatMap (upTo greed (reading lead) count) := by
      refine List.flatMap_congr fun place member => ih ?_
      have less := length_of_reading member
      omega
    cases greed with
    | greedy => exact congrArg (· ++ [cursor]) later
    | lazy => exact congrArg (cursor :: ·) later

private theorem upTo_reading {count : Nat} {cursor : Cursor} (enough : cursor.rest.length ≤ count) :
    upTo greed (reading lead) count cursor = anyNumber greed lead cursor := by
  obtain ⟨more, rfl⟩ := Nat.exists_eq_add_of_le enough
  induction more with
  | zero => rfl
  | succ more ih => exact (upTo_succ (Nat.le_add_right _ _)).trans (ih (Nat.le_add_right _ _))

theorem seek_anyNumber (test : Cursor → Bool) (at' : Spot) :
    let onward := seek test (fun cursor => (reading lead cursor).flatMap (anyNumber greed lead)) at'
    seek test (anyNumber greed lead) at' =
      match greed with
      | .greedy => onward.or (pick test [at'])
      | .lazy => (pick test [at']).or onward := by
  intro onward
  have here : seek test (anyNumber greed lead) at' =
      seek test (upTo greed (reading lead) (at'.1.rest.length + 1)) at' := by
    rw [seek_eq, seek_eq, upTo_reading (Nat.le_succ _)]
  have later : seek test (fun cursor => (reading lead cursor).flatMap
      (upTo greed (reading lead) at'.1.rest.length)) at' = onward := by
    have same : (reading lead at'.1).flatMap (upTo greed (reading lead) at'.1.rest.length) =
        (reading lead at'.1).flatMap (anyNumber greed lead) :=
      List.flatMap_congr fun place member => upTo_reading (Nat.le_of_lt (length_of_reading member))
    simp only [onward, seek_eq, same]
  rw [here, seek_upTo, later]

/-- Whether all that a marked place leads to has been reached, for the places with less than some number of characters
left. -/
def Settled (text : Text) (greed : Greed) (lead : Cursor → List Cursor) (bound : Nat) (survey : Survey) : Prop :=
  ∀ cursor : Cursor, cursor.text = text → cursor.rest.length < bound → survey.seen.has cursor.rest.length →
    Reached (anyNumber greed lead) cursor survey.ended

structure Roams (text : Text) (greed : Greed) (lead : Cursor → List Cursor) (before after : Survey)
    (adds : (Cursor → Bool) → Option Spot) : Prop where
  keeps : ∀ state ∈ before.ended, state ∈ after.ended
  marks : ∀ cursor : Cursor, cursor.text = text → after.seen.has cursor.rest.length →
    before.seen.has cursor.rest.length ∨ Reached (anyNumber greed lead) cursor after.ended
  finds : ∀ test, found test after.ended = (found test before.ended).or (adds test)

theorem Settled.after {bound : Nat} {before after : Survey} {adds : (Cursor → Bool) → Option Spot}
    (settled : Settled text greed lead bound before) (roams : Roams text greed lead before after adds) :
    Settled text greed lead bound after := by
  intro cursor inside less marked
  rcases roams.marks cursor inside marked with earlier | reached
  · exact (settled cursor inside less earlier).mono roams.keeps
  · exact reached

private theorem roams_foldl {bound : Nat} {work : State → Survey → Survey} {next : Cursor → List Cursor}
    {states : List State} (one : ∀ state ∈ states, ∀ survey, Settled text greed lead bound survey →
      Roams text greed lead survey (work state survey) fun test => seek test next (spot state))
    {survey : Survey} (settled : Settled text greed lead bound survey) :
    Roams text greed lead survey (states.foldl (fun survey state => work state survey) survey)
      fun test => (states.map spot).findSome? (seek test next) := by
  induction states generalizing survey with
  | nil => exact ⟨fun _ member => member, fun _ _ marked => .inl marked, fun _ => by simp⟩
  | cons state states ih =>
    have first := one state List.mem_cons_self survey settled
    have rest := ih (fun other member => one other (List.mem_cons_of_mem state member)) (settled.after first)
    refine ⟨fun other member => rest.keeps other (first.keeps other member), fun cursor inside marked => ?_,
      fun test => ?_⟩
    · rcases rest.marks cursor inside marked with earlier | reached
      · rcases first.marks cursor inside earlier with before | reached
        · exact .inl before
        · exact .inr (reached.mono rest.keeps)
      · exact .inr reached
    · rw [List.foldl_cons, rest.finds, first.finds, Option.or_assoc, List.map_cons, List.findSome?_cons]
      cases seek test next (spot state) <;> rfl

/-- The place of a state is marked before the passes from it, and by their end all that it leads to has been reached. -/
private theorem roams_mark {state : State} {survey marked after : Survey} {ended : List State}
    {adds : (Cursor → Bool) → Option Spot} (within : state.cursor.text = text)
    (marks : marked.seen = survey.seen.add state.left) (roams : Roams text greed lead marked after adds)
    (kept : ∀ state ∈ after.ended, state ∈ ended) (keeps : ∀ state ∈ survey.ended, state ∈ ended)
    (finds : ∀ test, found test ended = (found test survey.ended).or (seek test (anyNumber greed lead) (spot state))) :
    Roams text greed lead survey ⟨after.seen, ended⟩ fun test => seek test (anyNumber greed lead) (spot state) := by
  refine ⟨keeps, fun cursor inside seen => ?_, finds⟩
  have place : state.left = state.cursor.rest.length := state.left_eq
  rcases roams.marks cursor inside seen with earlier | reached
  · simp only [marks, Marks.has_add, place, Bool.or_eq_true, beq_iff_eq] at earlier
    rcases earlier with same | before
    · rw [cursor_eq (inside.trans within.symm) same]
      exact .inr (reached_of_found finds)
    · exact .inl before
  · exact .inr (reached.mono kept)

private theorem flatMap_further (cursor : Cursor) :
    ((lead cursor).flatMap fun place =>
      if place.rest.length < cursor.rest.length then anyNumber greed lead place else []) =
      (reading lead cursor).flatMap (anyNumber greed lead) := by
  unfold reading
  induction lead cursor with
  | nil => rfl
  | cons place places ih =>
    by_cases less : place.rest.length < cursor.rest.length
    all_goals simp [less, ih]

private theorem roams_passes (forward : Forward lead) (follows : Follows text false pass lead) {limit : Nat}
    {state : State} (within : state.cursor.text = text)
    (further : ∀ after survey, after.cursor.text = text → after.cursor.rest.length < state.cursor.rest.length →
      Settled text greed lead (after.cursor.rest.length + 1) survey →
      Roams text greed lead survey (roam greed false choose? pass limit after survey)
        fun test => seek test (anyNumber greed lead) (spot after))
    {survey : Survey} (settled : Settled text greed lead state.cursor.rest.length survey) :
    Roams text greed lead survey
      ((pass [state]).foldl
        (fun survey after =>
          if after.left < state.left then roam greed false choose? pass limit after survey
          else if false then survey.finish after
          else survey)
        survey)
      fun test => seek test (fun cursor => (reading lead cursor).flatMap (anyNumber greed lead)) (spot state) := by
  have inside : Within text [state] := by simpa [Within] using within
  have place (state : State) : state.left = state.cursor.rest.length := state.left_eq
  let next (place : Cursor) : List Cursor :=
    if place.rest.length < state.cursor.rest.length then anyNumber greed lead place else []
  have one : ∀ after ∈ pass [state], ∀ survey, Settled text greed lead state.cursor.rest.length survey →
      Roams text greed lead survey
        (if after.left < state.left then roam greed false choose? pass limit after survey
          else if false then survey.finish after
          else survey)
        fun test => seek test next (spot after) := by
    intro after member survey settled
    simp only [place]
    split
    next less =>
      have only : Settled text greed lead (after.cursor.rest.length + 1) survey :=
        fun cursor inside bound => settled cursor inside (by omega)
      have onward := further after survey (follows.within forward inside after member) less only
      refine ⟨onward.keeps, onward.marks, fun test => ?_⟩
      rw [onward.finds, seek_eq, seek_eq]
      simp [next, spot, less]
    next more =>
      refine ⟨fun _ member => member, fun _ _ marked => .inl marked, fun test => ?_⟩
      simp [seek_eq, next, spot, more]
  have all := roams_foldl one settled
  refine ⟨all.keeps, all.marks, fun test => ?_⟩
  rw [all.finds, follows.findSome? inside]
  simp only [List.map_cons, List.map_nil, List.findSome?_singleton]
  rw [seek_eq, seek_eq, ← flatMap_further]
  rfl

/-- A mark says nothing of the places with less left. -/
private theorem settled_mark {state : State} {survey : Survey} {ended : List State}
    (settled : Settled text greed lead (state.cursor.rest.length + 1) survey)
    (keeps : ∀ state ∈ survey.ended, state ∈ ended) :
    Settled text greed lead state.cursor.rest.length ⟨survey.seen.add state.left, ended⟩ := by
  intro cursor inside less marked
  have place : state.left = state.cursor.rest.length := state.left_eq
  simp only [Marks.has_add, place, Bool.or_eq_true, beq_iff_eq] at marked
  rcases marked with same | before
  · omega
  · exact (settled cursor inside (by omega) before).mono keeps

theorem roams (forward : Forward lead) (chooses : ∀ state, choose? state = some state)
    (follows : Follows text false pass lead) (limit : Nat) (state : State) (survey : Survey)
    (within : state.cursor.text = text) (enough : state.cursor.rest.length < limit)
    (settled : Settled text greed lead (state.cursor.rest.length + 1) survey) :
    Roams text greed lead survey (roam greed false choose? pass limit state survey)
      fun test => seek test (anyNumber greed lead) (spot state) := by
  induction limit generalizing state survey with
  | zero => omega
  | succ limit ih =>
    have onward {survey : Survey} (settled : Settled text greed lead state.cursor.rest.length survey) :=
      roams_passes forward follows within
        (fun after survey inside less settled => ih after survey inside (by omega) settled) settled
    simp only [roam]
    split
    next marked =>
      have place : state.left = state.cursor.rest.length := state.left_eq
      rw [place] at marked
      exact ⟨fun _ member => member, fun _ _ marked => .inl marked,
        fun test => (found_or_reached (settled _ within (Nat.lt_succ_self _) marked) test).symm⟩
    next =>
      rw [chooses]
      -- The place is marked first in both cases; only where the state itself is found differs.
      cases greed with
      | greedy =>
        have after := onward (settled_mark settled fun _ member => member)
        refine roams_mark within rfl after (fun other => List.mem_cons_of_mem state)
          (fun other member => List.mem_cons_of_mem state (after.keeps other member)) fun test => ?_
        rw [found_cons, after.finds, Option.or_assoc, seek_anyNumber]
      | lazy =>
        have after := onward (settled_mark settled fun other => List.mem_cons_of_mem state)
        refine roams_mark within rfl after (fun _ member => member)
          (fun other member => after.keeps other (List.mem_cons_of_mem state member)) fun test =>
            (after.finds test).trans ?_
        rw [found_cons, Option.or_assoc, seek_anyNumber]

theorem roamAll_follows (greed : Greed) (forward : Forward lead) (chooses : ∀ state, choose? state = some state)
    (follows : Follows text false pass lead) :
    Follows text false (fun states => (roamAll greed false choose? pass states {}).states) (anyNumber greed lead) := by
  intro states within test anything
  have fresh : Settled text greed lead (text.length + 1) {} := fun _ _ _ marked => by simp at marked
  have one : ∀ state ∈ states, ∀ survey, Settled text greed lead (text.length + 1) survey →
      Roams text greed lead survey (roam greed false choose? pass (state.left + 1) state survey)
        fun test => seek test (anyNumber greed lead) (spot state) := by
    intro state member survey settled
    have inside := within state member
    have place : state.left = state.cursor.rest.length := state.left_eq
    have short : state.cursor.rest.length ≤ text.length := by
      rw [← inside]
      simp [Cursor.text]
    rw [place]
    exact roams forward chooses follows _ state survey inside (Nat.lt_succ_self _)
      fun cursor text less => settled cursor text (by omega)
  have finds : ∀ test, pick test (List.map spot _) = _ := (roams_foldl one fresh).finds
  have forward' : Forward (anyNumber greed lead) := fun cursor => forward.reading.upTo greed _ cursor
  have inside := within_of_pick finds forward' within
  exact (pick_fresh inside test).trans (finds test)

end Roaming

end FluentPattern.Proofs.Repetitions
