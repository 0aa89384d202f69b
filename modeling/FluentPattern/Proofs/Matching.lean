import FluentPattern.Proofs.Repetitions
import FluentPattern.Regex.Limits

/-! The ways to match a regex lead where the regex leads on its own, in the same order of preference. This holds for the
ways through a plain regex as well as for those of a plan, which leaves the plain parts to themselves, as long as every
pass of a repetition without limit reads something. Otherwise the two end such a repetition differently. -/

namespace FluentPattern.Proofs.Matching
open Regex PassLimits Preference Repetitions

variable {text : Text} {final : Bool} {pass next : List State → List State} {lead lead' : Cursor → List Cursor}
  {greed : Greed}

section Parts

theorem seek_append (test : Cursor → Bool) (lead lead' : Cursor → List Cursor) (at' : Spot) :
    seek test (fun cursor => lead cursor ++ lead' cursor) at' = (seek test lead at').or (seek test lead' at') := by
  simp [seek, carry, pick_append]

theorem follows_flatMap {branch : State → List State}
    (each : ∀ state : State, state.cursor.text = text → ∀ test : Cursor → Bool, (final → ∀ cursor, test cursor) →
      pick test ((branch state).map spot) = seek test lead (spot state)) :
    Follows text final (·.flatMap branch) lead := by
  intro states within test anything
  rw [List.map_flatMap, pick_flatMap, List.findSome?_map]
  exact findSome?_congr fun state member => each state (within state member) test anything

theorem follows_filterMap {move : State → Option State}
    (each : ∀ state : State, state.cursor.text = text → ∀ test : Cursor → Bool, (final → ∀ cursor, test cursor) →
      pick test ((move state).toList.map spot) = seek test lead (spot state)) :
    Follows text final (·.filterMap move) lead := by
  intro states within test anything
  have same : pick test ((states.flatMap fun state => (move state).toList).map spot) = _ :=
    follows_flatMap each states within test anything
  rwa [← List.filterMap_eq_flatMap_toList] at same

theorem pick_all {test : Cursor → Bool} (anything : ∀ cursor, test cursor) (spots : List Spot) :
    pick test spots = spots.head? := by
  cases spots <;> simp [pick, anything]

theorem head?_fresh (states : List State) : (fresh states).head? = states.head? := by
  unfold fresh
  split
  · rfl
  · rfl
  next =>
    cases states with
    | nil => rfl
    | cons state states => simp [freshFrom]

theorem Follows.fresh (follows : Follows text final pass lead) (forward : Forward lead) :
    Follows text final (fun states => fresh (pass states)) lead := by
  intro states within test anything
  cases final with
  | false => exact (pick_fresh (follows.within forward within) test).trans (follows states within test anything)
  | true =>
    rw [← follows states within test anything, pick_all (anything rfl), pick_all (anything rfl), List.head?_map,
      List.head?_map, head?_fresh]

theorem follows_alt (one : Follows text final pass lead) (other : Follows text final next lead')
    (forward : Forward fun cursor => lead cursor ++ lead' cursor) :
    Follows text final (fun states => fresh (states.flatMap fun state => pass [state] ++ next [state]))
      fun cursor => lead cursor ++ lead' cursor := by
  refine Follows.fresh (follows_flatMap fun state within test anything => ?_) forward
  rw [List.map_append, pick_append, one.single within anything, other.single within anything, seek_append]

theorem head?_of_follows (follows : Follows text true pass lead) {state : State} (within : state.cursor.text = text) :
    (pass [state]).head?.map spot = (lead state.cursor).head?.map (·, state.groups.lookup 0) := by
  have first := follows.single within fun _ (_ : Cursor) => rfl
  rw [pick_all fun _ => rfl, seek, pick_all fun _ => rfl, List.head?_map, carry, List.head?_map] at first
  exact first

theorem follows_commit (follows : Follows text true pass lead)
    (forward : Forward fun cursor => (lead cursor).head?.toList) :
    Follows text final (fun states => fresh (states.filterMap fun state => (pass [state]).head?))
      fun cursor => (lead cursor).head?.toList := by
  refine Follows.fresh (follows_filterMap fun state within test anything => ?_) forward
  have first := head?_of_follows follows within
  cases reached : (pass [state]).head? with
  | none =>
    rw [reached, Option.map_none, eq_comm, Option.map_eq_none_iff] at first
    simp [pick, seek, carry, spot, first]
  | some after =>
    rw [reached] at first
    obtain ⟨place, leads, same⟩ := Option.map_eq_some_iff.mp first.symm
    simp only [Option.toList, List.map_cons, List.map_nil, seek, carry, spot, leads]
    rw [same]
    rfl

theorem follows_look (follows : Follows text true pass lead) (positive : Bool) :
    Follows text final
      (fun states => states.filterMap fun state =>
        match pass [state] with
        | after :: _ => if positive then some (after.backTo state) else none
        | [] => if positive then none else some state)
      fun cursor => if (lead cursor).isEmpty = positive then [] else [cursor] := by
  refine follows_filterMap fun state within test anything => ?_
  have first := head?_of_follows follows within
  cases reached : pass [state] with
  | nil =>
    rw [reached, List.head?_nil, Option.map_none, eq_comm, Option.map_eq_none_iff, List.head?_eq_none_iff] at first
    cases positive <;> simp [pick, seek, carry, spot, first]
  | cons after others =>
    rw [reached] at first
    obtain ⟨place, leads, same⟩ := Option.map_eq_some_iff.mp first.symm
    obtain ⟨places, some⟩ : ∃ places, lead state.cursor = place :: places :=
      List.head?_eq_some_iff.mp leads
    have kept : after.groups.lookup 0 = state.groups.lookup 0 := (congrArg Prod.snd same).symm
    cases positive <;> simp [pick, seek, carry, spot, some, State.backTo, kept]

theorem follows_capture (follows : Follows text final pass lead) (forward : Forward lead) {group : Nat}
    (inner : 0 < group) :
    Follows text final
      (fun states => fresh (states.flatMap fun state => (pass [state]).map (·.record group state.cursor))) lead := by
  refine Follows.fresh (follows_flatMap fun state within test anything => ?_) forward
  have outside : (spot ∘ fun after => after.record group state.cursor) = spot := by
    funext after
    have different : (0 == group) = false := beq_false_of_ne (Nat.ne_of_lt inner)
    simp [spot, State.record, List.lookup_cons, different]
  rw [List.map_map, outside]
  exact follows.single within anything

private theorem lookup_kept (groups : Groups) {first : Nat} (inner : 0 < first) (count : Nat) :
    (groups.filter fun (group, _) => group < first || first + count ≤ group).lookup 0 = groups.lookup 0 := by
  induction groups with
  | nil => rfl
  | cons capture groups ih =>
    obtain ⟨number, found⟩ := capture
    cases number with
    | zero => simp [inner]
    | succ number =>
      by_cases keep : number + 1 < first ∨ first + count ≤ number + 1
      all_goals simpa [keep, List.lookup_cons] using ih

theorem follows_whole (follows : Follows text true pass lead) {first : Nat} (inner : 0 < first) (count : Nat)
    (forward : Forward fun cursor => (lead cursor).head?.toList) :
    Follows text final
      (fun states => fresh (states.filterMap fun state =>
        (pass [state.withoutGroups]).head?.map (state.goTo · first count)))
      fun cursor => (lead cursor).head?.toList := by
  refine Follows.fresh (follows_filterMap fun state within test anything => ?_) forward
  have alone := head?_of_follows follows (show state.withoutGroups.cursor.text = text from within)
  cases reached : (pass [state.withoutGroups]).head? with
  | none =>
    rw [reached, Option.map_none, eq_comm, Option.map_eq_none_iff] at alone
    have none : (lead state.cursor).head? = none := alone
    simp [pick, seek, carry, spot, none]
  | some after =>
    rw [reached] at alone
    obtain ⟨place, leads, same⟩ := Option.map_eq_some_iff.mp alone.symm
    have leads : (lead state.cursor).head? = some place := leads
    have here : after.cursor = place := (congrArg Prod.fst same).symm
    have clean : after.groups.lookup 0 = none := (congrArg Prod.snd same).symm
    have kept : (state.goTo after first count).groups.lookup 0 = state.groups.lookup 0 := by
      simp only [State.goTo, List.lookup_append, clean, Option.none_or]
      exact lookup_kept state.groups inner count
    have there : (state.goTo after first count).cursor = place := here
    simp [seek, carry, spot, leads, kept, there]

end Parts

section Loops

private theorem le_foldl_max {numbers : List Nat} {least : Nat} :
    least ≤ numbers.foldl max least ∧ ∀ number ∈ numbers, number ≤ numbers.foldl max least := by
  induction numbers generalizing least with
  | nil => simp
  | cons number numbers ih =>
    obtain ⟨start, others⟩ := @ih (max least number)
    refine ⟨Nat.le_trans (Nat.le_max_left ..) start, fun other member => ?_⟩
    rcases List.mem_cons.mp member with rfl | member
    · exact Nat.le_trans (Nat.le_max_right ..) start
    · exact others other member

theorem lt_passLimit {states : List State} {state : State} (member : state ∈ states) :
    state.cursor.rest.length < passLimit states := by
  have below : state.left ≤ (states.map State.left).foldl max 0 := le_foldl_max.2 _ (List.mem_map_of_mem member)
  rw [← state.left_eq]
  exact Nat.lt_succ_of_le below

variable {choose : Nat → State → Option State} {again : State → Option State} {passAt : Nat → List State → List State}

private theorem findSome?_seek_congr {states : List State} {test : Cursor → Bool}
    (same : ∀ state ∈ states, (lead state.cursor).find? test = (lead' state.cursor).find? test) :
    (states.map spot).findSome? (seek test lead) = (states.map spot).findSome? (seek test lead') := by
  rw [List.findSome?_map, List.findSome?_map]
  refine findSome?_congr fun state member => ?_
  simp only [Function.comp_apply, seek_eq]
  exact congrArg (Option.map _) (same state member)

theorem counted_follows (forward : Forward lead) (chooses : ∀ number state, choose number state = some state)
    (follows : ∀ number, Follows text false (passAt number) lead) (least most : Nat) (start : List State → Nat) :
    Follows text false
      (fun states => climbAll greed choose passAt (min most (passLimit states)) (start states)
        (advance passAt (min least (passLimit states)) 0 states))
      fun cursor => (passes lead least cursor).flatMap (upTo greed lead most) := by
  intro states within test anything
  have limited := (advance_follows forward follows (min least (passLimit states)) 0).seq (forward.passes _)
    (climbAll_follows greed forward chooses follows (min most (passLimit states)) (start states)) states within
    test anything
  refine limited.trans (findSome?_seek_congr fun state member => ?_)
  exact find?_limited forward greed (lt_passLimit member) least most test

theorem endless_follows (forward : Forward lead) (chooses : ∀ state, again state = some state)
    (follows : ∀ number, Follows text false (passAt number) lead)
    (follows' : Follows text false pass lead) (least : Nat) :
    Follows text false
      (fun states =>
        (roamAll greed false again pass (advance passAt (min least (passLimit states)) 0 states) {}).states)
      fun cursor => (passes lead least cursor).flatMap (anyNumber greed lead) := by
  intro states within test anything
  have limited := (advance_follows forward follows (min least (passLimit states)) 0).seq (forward.passes _)
    (roamAll_follows greed forward chooses follows') states within test anything
  refine limited.trans (findSome?_seek_congr fun state member => ?_)
  exact find?_limited_passes forward (lt_passLimit member) least _ test

private theorem ended_foldl (states : List State) (ascent : Ascent) :
    (states.foldl (fun ascent state => { ascent with ended := state :: ascent.ended }) ascent).ended =
      states.reverse ++ ascent.ended := by
  induction states generalizing ascent with
  | nil => rfl
  | cons state states ih => simp [ih]

private theorem ended_climb_one (chooses : ∀ number state, choose number state = some state) (number : Nat)
    (state : State) (ascent : Ascent) :
    (climb greed choose passAt 1 number state ascent).ended =
      if (ascent.seen.headD {}).has state.left then ascent.ended
      else
        (match greed with
          | .greedy => state :: (passAt number [state]).reverse
          | .lazy => (passAt number [state]).reverse ++ [state]) ++ ascent.ended := by
  simp only [climb, chooses]
  split
  · rfl
  · cases greed <;> simp [ended_foldl]

private theorem ended_climbs_one (chooses : ∀ number state, choose number state = some state) (number : Nat)
    (states : List State) (ascent : Ascent) :
    ∃ more, (states.foldl (fun ascent state => climb greed choose passAt 1 number state ascent) ascent).ended =
      more ++ ascent.ended := by
  induction states generalizing ascent with
  | nil => exact ⟨[], rfl⟩
  | cons state states ih =>
    obtain ⟨more, rest⟩ := ih (climb greed choose passAt 1 number state ascent)
    rw [List.foldl_cons, rest, ended_climb_one chooses]
    split
    · exact ⟨more, rfl⟩
    · exact ⟨_, (List.append_assoc ..).symm⟩

/-- At most one pass, with nothing after it that could ask for another way. -/
theorem once_follows (chooses : ∀ number state, choose number state = some state)
    (follows : ∀ number, Follows text true (passAt number) lead) (number : Nat) :
    Follows text true (climbAll greed choose passAt 1 number) (upTo greed lead 1) := by
  intro states within test anything
  have all := anything rfl
  cases states with
  | nil => rfl
  | cons state states =>
    have here : state.cursor.text = text := within state List.mem_cons_self
    obtain ⟨more, rest⟩ := ended_climbs_one chooses number states (climb greed choose passAt 1 number state {})
    have one := (follows number).single here anything
    rw [pick_all all, List.head?_map] at one
    have stop : pick test [spot state] = some (spot state) := pick_all all _
    have none : seek test (fun cursor => (lead cursor).flatMap (upTo greed lead 0)) (spot state) =
        seek test lead (spot state) := by
      simp [seek, carry, upTo]
    rw [pick_all all, List.head?_map, climbAll, head?_fresh, List.foldl_cons, rest, ended_climb_one chooses,
      List.map_cons, List.findSome?_cons, seek_upTo, none, ← one, stop]
    cases greed with
    | greedy => cases reached : (passAt number [state]).head? <;> simp [reached]
    | lazy => simp

end Loops

section Trees

variable {mode : Mode}

def Still (lead : Cursor → List Cursor) : Prop := ∀ cursor, ∀ place ∈ lead cursor, place = cursor

namespace Still

theorem reading (still : Still lead) : Still (reading lead) := fun cursor place member =>
  still cursor place (List.mem_filter.mp member).1

theorem flatMap (one : Still lead) (other : Still lead') : Still fun cursor => (lead cursor).flatMap lead' := by
  intro cursor place member
  obtain ⟨middle, first, second⟩ := List.mem_flatMap.mp member
  rw [other middle place second, one cursor middle first]

theorem passes (still : Still lead) (count : Nat) : Still (passes lead count) := by
  induction count with
  | zero => simp [Still, Regex.passes]
  | succ count ih => exact still.flatMap ih

theorem upTo (still : Still lead) (greed : Greed) (count : Nat) : Still (upTo greed lead count) := by
  induction count with
  | zero => simp [Still, Regex.upTo]
  | succ count ih =>
    intro cursor place member
    exact (mem_upTo_succ.mp member).elim (still.flatMap ih cursor place) id

theorem loopEnds (still : Still lead) (bounds : Bounds) (greed : Greed) : Still (loopEnds bounds greed lead) := by
  intro cursor place member
  unfold Regex.loopEnds at member
  split at member
  · exact (still.passes _).flatMap (still.upTo greed _) cursor place member
  · exact (still.passes _).flatMap (fun cursor => still.reading.upTo greed _ cursor) cursor place member

theorem find?_upTo (still : Still lead) (greed : Greed) (count : Nat) (cursor : Cursor) (test : Cursor → Bool) :
    (Regex.upTo greed lead count cursor).find? test = [cursor].find? test := by
  have stop : cursor ∈ Regex.upTo greed lead count cursor := by
    cases count <;> cases greed <;> simp [Regex.upTo]
  cases passed : test cursor with
  | false =>
    rw [List.find?_singleton, passed]
    refine List.find?_eq_none.mpr fun place member => ?_
    simp [still.upTo greed count cursor place member, passed]
  | true =>
    rw [List.find?_singleton, passed]
    obtain ⟨place, found⟩ := Option.isSome_iff_exists.mp (List.find?_isSome.mpr ⟨cursor, stop, passed⟩)
    rw [found, still.upTo greed count cursor place (List.mem_of_find?_eq_some found)]
    rfl

/-- Nothing can be told from a repetition of what reads nothing, but whether it is there. -/
theorem find?_voidBounds (still : Still lead) (bounds : Bounds) (greed : Greed) (cursor : Cursor)
    (test : Cursor → Bool) :
    (Regex.loopEnds (voidBounds bounds) greed lead cursor).find? test =
      (Regex.loopEnds bounds greed lead cursor).find? test := by
  have only (least : Nat) {next : Cursor → List Cursor}
      (same : ∀ place, (next place).find? test = [place].find? test) :
      ((Regex.passes lead least cursor).flatMap next).find? test =
        (Regex.passes lead (min least 1) cursor).find? test := by
    rw [(counts_passes lead test).min_one_eq (still cursor), List.find?_flatMap,
      findSome?_congr fun place _ => same place, ← List.find?_flatMap, List.flatMap_singleton']
  have least : min (min (min bounds.least 1) (min (bounds.most.getD 1) 1)) 1 =
      min (min bounds.least (bounds.most.getD 1)) 1 := by omega
  unfold Regex.loopEnds voidBounds
  rw [only _ fun place => still.find?_upTo greed _ place test, least]
  cases limit : bounds.most with
  | some most => exact (only _ fun place => still.find?_upTo greed _ place test).symm
  | none =>
    have once : min (min bounds.least 1) 1 = min bounds.least 1 := by omega
    simp only [Option.getD_none, once]
    exact (only _ fun place => still.reading.find?_upTo greed _ place test).symm

end Still

theorem straight_voidBounds {bounds : Bounds} (straight : bounds.reversed = false) :
    (voidBounds bounds).reversed = false := by
  have inOrder : min bounds.least 1 ≤ min (bounds.most.getD 1) 1 := by
    cases limit : bounds.most with
    | none => simp
    | some most =>
      have inOrder := Bounds.least_le straight limit
      rw [Option.getD_some]
      omega
  exact decide_eq_false (Nat.not_lt.mpr inOrder)

theorem still_of_isVoid {regex : Regex} (void : regex.isVoid) : Still (regex.ends mode) := by
  induction regex with
  | empty => simp [Still, ends]
  | char => cases void
  | atStart | atEnd | look =>
    intro cursor
    simp only [ends]
    split <;> simp
  | seq first second ihFirst ihSecond =>
    simp only [isVoid, Bool.and_eq_true] at void
    exact (ihFirst void.1).flatMap (ihSecond void.2)
  | alt first second ihFirst ihSecond =>
    simp only [isVoid, Bool.and_eq_true] at void
    intro cursor place member
    exact (List.mem_append.mp member).elim (ihFirst void.1 cursor place) (ihSecond void.2 cursor place)
  | capture _ body ih => exact ih void
  | commit body ih =>
    exact fun cursor place member => ih void cursor place (List.mem_of_mem_head? (Option.mem_toList.mp member))
  | loop body bounds greed ih =>
    simp only [isVoid, Bool.or_eq_true, beq_iff_eq] at void
    rcases void with void | none
    · exact (ih void).loopEnds bounds greed
    · simp [Still, ends, loopEnds, none, passes, upTo]

theorem follows_filter {keep : State → Bool} (same : ∀ state, keep state = keep (.start state.cursor)) :
    Follows text final (·.filter keep) fun cursor => if keep (.start cursor) then [cursor] else [] := by
  have each : Follows text final (·.filterMap (Option.guard keep))
      fun cursor => if keep (.start cursor) then [cursor] else [] := by
    refine follows_filterMap fun state within test anything => ?_
    simp only [Option.guard, same state, seek, carry]
    by_cases kept : keep (.start state.cursor) = true
    all_goals simp [spot, kept]
  rwa [List.filterMap_eq_filter] at each

private theorem endlessWays_eq (least : Nat) (pass : Trail → List State → List State) (states : List State) :
    endlessWays least greed false none pass states =
      (roamAll greed false some (pass none) (advance (fun _ => pass none) least 0 states) {}).states := by
  cases least with
  | zero => rfl
  | succ least =>
    have all : enterable greed none states = states := by
      cases greed <;> simp [enterable, State.hasChosen]
    simp only [endlessWays, Trail.choice, Trail.inside, Option.map_none, all, ite_self]
    rfl

theorem loopWays_follows {pass : Trail → List State → List State} {bounds : Bounds} {canBeEmpty : Bool}
    (follows : Follows text false (pass none) lead) (forward : Forward lead) (straight : bounds.reversed = false)
    (steady : bounds.most.isSome || !canBeEmpty) :
    Follows text false (loopWays bounds greed canBeEmpty none pass) (loopEnds bounds greed lead) := by
  intro states within test anything
  unfold loopWays loopEnds
  cases limit : bounds.most with
  | some most =>
    have inOrder : min bounds.least most = bounds.least := by
      simp only [Bounds.reversed, limit, decide_eq_false_iff_not] at straight
      omega
    simp only [inOrder]
    exact counted_follows forward (fun _ _ => rfl) (fun _ => follows) bounds.least (most - bounds.least)
      (fun states => min bounds.least (passLimit states)) states within test anything
  | none =>
    obtain rfl : canBeEmpty = false := by simpa [limit] using steady
    simp only [Bool.and_false, Bool.false_eq_true, if_false, endlessWays_eq]
    exact endless_follows forward (fun _ => rfl) (fun _ => follows) follows bounds.least states within test anything

theorem ways_follows {regex : Regex} (steady : regex.isSteady) (straight : regex.hasReversedBounds = false)
    {group : Nat} (inner : 0 < group) : Follows text false (regex.ways mode group none) (regex.ends mode) := by
  induction regex generalizing group with
  | empty => exact fun states _ test _ => pick_stay test (states.map spot)
  | char set =>
    refine follows_filterMap fun state within test anything => ?_
    obtain ⟨⟨before, _ | ⟨c, rest⟩⟩, left, groups, choices, left_eq⟩ := state
    · rfl
    · simp only [State.read?, ends, seek, carry, spot]
      split <;> rfl
  | atStart | atEnd => exact follows_filter fun _ => rfl
  | seq first second ihFirst ihSecond =>
    simp only [isSteady, hasReversedBounds, Bool.and_eq_true, Bool.or_eq_false_iff] at steady straight
    exact (ihFirst steady.1 straight.1 inner).seq (forward_ends mode first)
      (ihSecond steady.2 straight.2 (Nat.add_pos_left inner _))
  | alt first second ihFirst ihSecond =>
    simp only [isSteady, hasReversedBounds, Bool.and_eq_true, Bool.or_eq_false_iff] at steady straight
    exact follows_alt (ihFirst steady.1 straight.1 inner) (ihSecond steady.2 straight.2 (Nat.add_pos_left inner _))
      (forward_ends mode (.alt first second))
  | look positive body ih => exact follows_look (ih steady straight inner).weaken positive
  | capture name body ih =>
    exact follows_capture (ih steady straight (Nat.succ_pos group)) (forward_ends mode body) inner
  | commit body ih => exact follows_commit (ih steady straight inner).weaken (forward_ends mode (.commit body))
  | loop body bounds greed ih =>
    simp only [isSteady, hasReversedBounds, Bool.and_eq_true, Bool.or_eq_false_iff] at steady straight
    have below := ih steady.2 straight.2 inner
    have forward := forward_ends mode body
    have read : bounds.most.isSome || !decide (body.minSize = 0) := by simpa [bne] using steady.1
    show Follows text false (loopWays (if body.isVoid then voidBounds bounds else bounds) greed (body.minSize = 0) none
      (body.ways mode group)) (loopEnds bounds greed (body.ends mode))
    split
    next void =>
      have still : Still (body.ends mode) := still_of_isVoid void
      exact (loopWays_follows below forward (straight_voidBounds straight.1) (by simp [voidBounds])).congr
        fun cursor _ test => still.find?_voidBounds bounds greed cursor test
    next => exact loopWays_follows below forward straight.1 read

end Trees

end FluentPattern.Proofs.Matching
