import FluentPattern.Proofs.Offsets
import FluentPattern.Regex.Search

/-! A search never goes back. Each state that a match comes to is at a place reached from where the match began, and
what the groups have captured by then lies between the two. Whatever regex is matched, and however it is planned, the
steps of a search only select among states, note choices, read on, and capture what has just been read; so this is kept
by all of them. -/

namespace FluentPattern

/-- Whether a stretch starts at a place that is reached from another one, and ends where its start leads. -/
structure Match.IsAhead (m : Match) (origin : Cursor) : Prop where
  start : origin.Reaches m.start
  stop : m.start.Reaches m.stop

theorem Match.IsAhead.mono {m : Match} {origin earlier : Cursor} (ahead : m.IsAhead origin)
    (reaches : earlier.Reaches origin) : m.IsAhead earlier := ⟨reaches.trans ahead.start, ahead.stop⟩

namespace Proofs.Progress
open Regex

/-- Whether doing something to states that have one property leads only to states that have another. -/
def Brings (before after : State → Prop) (pass : List State → List State) : Prop :=
  ∀ states, (∀ state ∈ states, before state) → ∀ state ∈ pass states, after state

abbrev Keeps (holds : State → Prop) (pass : List State → List State) : Prop := Brings holds holds pass

section Parts

variable {holds before after : State → Prop} {counted : Nat → State → Prop} {pass next : List State → List State}
  {greed : Greed}

namespace Brings

theorem single (brings : Brings before after pass) {state : State} (held : before state) :
    ∀ other ∈ pass [state], after other :=
  brings [state] (by simpa using held)

theorem weaken (brings : Brings before after pass) (implies : ∀ state, after state → holds state) :
    Brings before holds pass :=
  fun states held state member => implies state (brings states held state member)

theorem seq (brings : Brings before holds pass) (brings' : Brings holds after next) :
    Brings before after fun states => next (pass states) :=
  fun states held => brings' (pass states) (brings states held)

theorem fresh (brings : Brings before after pass) : Brings before after fun states => fresh (pass states) :=
  fun states held state member => brings states held state (mem_of_mem_fresh member)

theorem flatMap {branch : State → List State} (each : ∀ state, before state → ∀ other ∈ branch state, after other) :
    Brings before after (·.flatMap branch) := by
  intro states held other member
  obtain ⟨state, present, reached⟩ := List.mem_flatMap.mp member
  exact each state (held state present) other reached

theorem filterMap {move : State → Option State}
    (each : ∀ state, before state → ∀ other, move state = some other → after other) :
    Brings before after (·.filterMap move) := by
  intro states held other member
  obtain ⟨state, present, moved⟩ := List.mem_filterMap.mp member
  exact each state (held state present) other moved

theorem filter (keep : State → Bool) : Keeps holds (·.filter keep) :=
  fun _ held state member => held state (List.mem_filter.mp member).1

theorem advance {passAt : Nat → List State → List State}
    (each : ∀ number index, Brings (counted number) (counted (number + 1)) (passAt index)) (count number index : Nat) :
    Brings (counted number) (counted (number + count)) (advance passAt count index) := by
  induction count generalizing number index with
  | zero => exact fun _ held => held
  | succ count ih =>
    intro states held
    simp only [Regex.advance]
    split
    · simp
    · have rest := ih (number + 1) (index + 1) (passAt index states) (each number index states held)
      rwa [Nat.add_right_comm] at rest

end Brings

/-- Whether a property holds of the states in which a repetition has ended so far. -/
abbrev Ended (holds : State → Prop) (ended : List State) : Prop := ∀ state ∈ ended, holds state

theorem finish_keeps {survey : Survey} (earlier : Ended holds survey.ended) {state : State} (held : holds state) :
    Ended holds (survey.finish state).ended :=
  List.forall_mem_cons.mpr ⟨held, earlier⟩

section Roaming

variable {emptyCounts : Bool} {choose? : State → Option State}
  (chooses : ∀ state chosen, choose? state = some chosen → holds state → holds chosen)
  (onward : ∀ state, holds state → ∀ other ∈ pass [state], holds other)

include chooses onward

private theorem roam_keeps (limit : Nat) {state : State} (held : holds state)
    {survey : Survey} (earlier : Ended holds survey.ended) :
    Ended holds (roam greed emptyCounts choose? pass limit state survey).ended := by
  induction limit generalizing state survey with
  | zero => exact earlier
  | succ limit ih =>
    simp only [roam]
    split
    · exact earlier
    · split
      · exact earlier
      next chosen choice =>
        have held : holds chosen := chooses _ _ choice held
        have further (survey : Survey) (earlier : Ended holds survey.ended) :
            Ended holds ((pass [chosen]).foldl (fun survey after =>
                if after.left < chosen.left then roam greed emptyCounts choose? pass limit after survey
                else if emptyCounts then survey.finish after else survey) survey).ended := by
          refine List.foldlRecOn (motive := fun survey : Survey => Ended holds survey.ended) (pass [chosen]) _ earlier
            fun survey earlier after reached => ?_
          have held : holds after := onward chosen held after reached
          split
          · exact ih held earlier
          · split
            · exact finish_keeps earlier held
            · exact earlier
        let marked : Survey := { survey with seen := survey.seen.add chosen.left }
        cases greed with
        | greedy => exact finish_keeps (further marked earlier) held
        | lazy => exact further (marked.finish chosen) (finish_keeps earlier held)

theorem roamAll_keeps {states : List State} (held : ∀ state ∈ states, holds state)
    {survey : Survey} (earlier : Ended holds survey.ended) :
    Ended holds (roamAll greed emptyCounts choose? pass states survey).ended :=
  List.foldlRecOn (motive := fun survey : Survey => Ended holds survey.ended) states _ earlier
    fun _ earlier state present => roam_keeps chooses onward _ (held state present) earlier

theorem roamFrom_keeps {chooseFirst? : State → Option State} {enter : List State → List State}
    (choosesFirst : ∀ state chosen, chooseFirst? state = some chosen → holds state → holds chosen)
    (enters : ∀ state, holds state → ∀ other ∈ pass (enter [state]), holds other) {states : List State}
    (held : ∀ state ∈ states, holds state) :
    Ended holds (roamFrom greed chooseFirst? choose? enter pass states).ended := by
  refine List.foldlRecOn (motive := fun survey : Survey => Ended holds survey.ended) states _
    (fun _ member => nomatch member) fun survey earlier state present => ?_
  split
  · exact earlier
  next chosen choice =>
    have started : holds chosen := choosesFirst _ _ choice (held state present)
    have entered := enters chosen started
    cases greed with
    | greedy => exact finish_keeps (roamAll_keeps chooses onward entered earlier) started
    | lazy => exact roamAll_keeps chooses onward entered (finish_keeps earlier started)

end Roaming

theorem survey_states_keep {survey : Survey} (held : Ended holds survey.ended) :
    ∀ state ∈ survey.states, holds state :=
  fun state member => held state (List.mem_reverse.mp (mem_of_mem_fresh member))

section Climbing

variable {choose? : Nat → State → Option State} {passAt : Nat → List State → List State}
  (chooses : ∀ number index state chosen, choose? index state = some chosen → counted number state →
    counted number chosen)
  (brings : ∀ number index, Brings (counted number) (counted (number + 1)) (passAt index))

include chooses brings

private theorem climb_brings (count number index : Nat)
    (stops : ∀ more ≤ count, ∀ state, counted (number + more) state → after state) {state : State}
    (held : counted number state) {ascent : Ascent} (earlier : Ended after ascent.ended) :
    Ended after (climb greed choose? passAt count index state ascent).ended := by
  induction count generalizing number index state ascent with
  | zero => exact List.forall_mem_cons.mpr ⟨stops 0 (Nat.le_refl 0) state held, earlier⟩
  | succ count ih =>
    simp only [climb]
    split
    · exact earlier
    · split
      · exact earlier
      next chosen choice =>
        have held : counted number chosen := chooses number index _ _ choice held
        have stop : after chosen := stops 0 (Nat.zero_le _) chosen held
        have later : ∀ more ≤ count, ∀ state, counted (number + 1 + more) state → after state := by
          intro more few state
          rw [Nat.add_assoc, Nat.add_comm 1 more]
          exact stops (more + 1) (Nat.succ_le_succ few) state
        have onward {seen : List Marks} {done : List State} (earlier : Ended after done) :
            Ended after ((passAt index [chosen]).foldl
              (fun ascent other => climb greed choose? passAt count (index + 1) other ascent) ⟨seen, done⟩).ended :=
          List.foldlRecOn (motive := fun ascent : Ascent => Ended after ascent.ended) (passAt index [chosen]) _ earlier
            fun ascent earlier other reached =>
              ih (number + 1) (index + 1) later ((brings number index).single held other reached) earlier
        cases greed with
        | greedy => exact List.forall_mem_cons.mpr ⟨stop, onward earlier⟩
        | lazy => exact onward (List.forall_mem_cons.mpr ⟨stop, earlier⟩)

theorem Brings.climbAll (count number index : Nat) :
    Brings (counted number) (fun state => ∃ more ≤ count, counted (number + more) state)
      (climbAll greed choose? passAt count index) := by
  intro states held state member
  have ended := List.foldlRecOn
    (motive := fun ascent : Ascent => Ended (fun state => ∃ more ≤ count, counted (number + more) state) ascent.ended)
    states (fun ascent state => climb greed choose? passAt count index state ascent) (b := {})
    (fun _ member => nomatch member)
    fun ascent earlier start present =>
      climb_brings chooses brings count number index (fun more few _ held => ⟨more, few, held⟩) (held start present)
        earlier
  exact ended state (List.mem_reverse.mp (mem_of_mem_fresh member))

end Climbing

/-- Whether a state comes after a number of passes that some bounds ask for, or after as many of them as can matter. -/
def AfterPasses (bounds : Bounds) (limit : Nat) (counted : Nat → State → Prop) (state : State) : Prop :=
  ∃ least more, (bounds.reversed = false → least = bounds.least ∨ least = min bounds.least limit) ∧
    (∀ most ∈ bounds.most, more ≤ most - bounds.least) ∧ counted (least + more) state

theorem choose?_keeps
    (forgets : ∀ (state : State) (choices : List Address), holds state → holds { state with choices := choices })
    (trail : Trail) (state chosen : State) (choice : state.choose? trail = some chosen) (held : holds state) :
    holds chosen := by
  cases trail with
  | none =>
    cases choice
    exact held
  | some address =>
    simp only [State.choose?] at choice
    split at choice
    · cases choice
    · cases choice
      exact forgets _ _ held

section Choices

variable
  (forgets : ∀ number (state : State) (choices : List Address), counted number state →
    counted number { state with choices := choices })
  {trail : Trail} {passOn : Trail → List State → List State}
  (brings : ∀ number trail, Brings (counted number) (counted (number + 1)) (passOn trail))

include forgets brings

private theorem endlessWays_brings (least : Nat) (canBeEmpty : Bool) :
    Brings (counted 0) (fun state => ∃ more, counted (least + more) state)
      (endlessWays least greed canBeEmpty trail passOn) := by
  have chooses (choice : Trail) (state chosen : State) (chose : state.choose? choice = some chosen) :
      (∃ more, counted (least + more) state) → ∃ more, counted (least + more) chosen := by
    rintro ⟨more, held⟩
    exact ⟨more, choose?_keeps (forgets _) choice state chosen chose held⟩
  have onward (trail : Trail) (state : State) (after : ∃ more, counted (least + more) state) :
      ∀ other ∈ passOn trail [state], ∃ more, counted (least + more) other := by
    obtain ⟨more, held⟩ := after
    intro other reached
    exact ⟨more + 1, (brings (least + more) trail).single held other reached⟩
  have enters (choice : Trail) (number : Nat) : Keeps (counted number) (enterable greed choice) := by
    cases greed with
    | greedy => exact .filter _
    | lazy => exact fun _ held => held
  intro states held
  unfold Regex.endlessWays
  split
  next =>
    refine survey_states_keep (roamFrom_keeps (chooses _) (onward _) (chooses _) (fun state after => ?_) fun state member =>
      ⟨0, held state member⟩)
    obtain ⟨more, held⟩ := after
    intro other reached
    exact ⟨more + 1, ((enters _ _).seq (brings _ _)).single held other reached⟩
  next =>
    exact survey_states_keep (roamAll_keeps (chooses _) (onward _) (fun state member => ⟨0, held state member⟩)
      (fun _ member => nomatch member))
  next least =>
    have entered : ∀ state ∈ (if least = 0 then enterable greed (trail.choice (least + 1)) states else states),
        counted 0 state := by
      split
      · exact enters _ _ states held
      · exact held
    have advanced := Brings.advance (fun number index => brings number (trail.pass index)) (least + 1) 0 0 _ entered
    rw [Nat.zero_add] at advanced
    exact survey_states_keep (roamAll_keeps (chooses _) (onward _) (fun state member => ⟨0, advanced state member⟩)
      (fun _ member => nomatch member))

theorem Brings.loopWays (bounds : Bounds) {canBeEmpty : Bool} {states : List State}
    (held : ∀ state ∈ states, counted 0 state) :
    ∀ state ∈ loopWays bounds greed canBeEmpty trail passOn states,
      AfterPasses bounds (passLimit states) counted state := by
  intro state member
  simp only [Regex.loopWays] at member
  have enough : ∀ {least}, least = (if trail.isNone then min bounds.least (passLimit states) else bounds.least) →
      bounds.reversed = false → least = bounds.least ∨ least = min bounds.least (passLimit states) := by
    rintro _ rfl -
    split
    · exact .inr rfl
    · exact .inl rfl
  generalize (if trail.isNone then min bounds.least (passLimit states) else bounds.least) = least at member enough
  split at member
  next most limit =>
    have advanced := Brings.advance (fun number index => brings number (trail.pass index)) least 0 0 states held
    rw [Nat.zero_add] at advanced
    have climbed := Brings.climbAll (fun number index => choose?_keeps (forgets number) (trail.choice index))
      (fun number index => brings number (trail.pass index)) _ least least _ advanced state member
    obtain ⟨more, few, after⟩ := climbed
    refine ⟨least, more, enough rfl, fun other same => ?_, after⟩
    obtain rfl : most = other := Option.some.inj (limit.symm.trans same)
    exact Nat.le_trans few (Nat.min_le_left _ _)
  next none =>
    have anew : ∀ state ∈ states.map State.anew, counted 0 state := by
      intro state member
      obtain ⟨earlier, present, rfl⟩ := List.mem_map.mp member
      exact forgets 0 earlier [] (held earlier present)
    have endless : ∃ more, counted (least + more) state := by
      split at member
      · exact endlessWays_brings forgets brings least canBeEmpty _ anew state member
      · exact endlessWays_brings forgets brings least canBeEmpty _ held state member
    obtain ⟨more, after⟩ := endless
    exact ⟨least, more, enough rfl, by simp [none], after⟩

end Choices

theorem Brings.plannedLoopWays (brings : ∀ number, Brings (counted number) (counted (number + 1)) pass) (bounds : Bounds)
    {canBeEmpty : Bool} {states : List State} (held : ∀ state ∈ states, counted 0 state) :
    ∀ state ∈ Plan.loopWays bounds greed canBeEmpty pass states,
      AfterPasses bounds (passLimit states) counted state := by
  have chooses {holds : State → Prop} (state chosen : State) (same : some state = some chosen) (held : holds state) :
      holds chosen := by
    cases same
    exact held
  have advanced (least : Nat) : ∀ state ∈ Regex.advance (fun _ => pass) least 0 states, counted least state := by
    have counts : ∀ state ∈ Regex.advance (fun _ => pass) least 0 states, counted (0 + least) state :=
      Brings.advance (fun number _ => brings number) least 0 0 states held
    rwa [Nat.zero_add] at counts
  intro state member
  unfold Plan.loopWays at member
  split at member
  next most limit =>
    obtain ⟨more, few, after⟩ := Brings.climbAll (fun _ _ => chooses) (fun number _ => brings number) _ _ _ _
      (advanced _) state member
    refine ⟨_, more, fun straight => .inr ?_, fun other same => ?_, after⟩
    · have inOrder := Bounds.least_le straight limit
      rw [Nat.min_eq_left inOrder]
    · obtain rfl : most = other := Option.some.inj (limit.symm.trans same)
      exact Nat.le_trans few (Nat.min_le_left _ _)
  next none =>
    have onward (state : State) : (∃ more, counted (min bounds.least (passLimit states) + more) state) →
        ∀ other ∈ pass [state], ∃ more, counted (min bounds.least (passLimit states) + more) other := by
      rintro ⟨more, held⟩ other reached
      exact ⟨more + 1, (brings _).single held other reached⟩
    obtain ⟨more, after⟩ := survey_states_keep (roamAll_keeps chooses onward
      (fun state present => ⟨0, advanced _ state present⟩) (List.forall_mem_nil _)) state member
    exact ⟨_, more, fun _ => .inr rfl, by simp [none], after⟩

section Invariants

variable {trail : Trail} {passOn : Trail → List State → List State} {canBeEmpty : Bool}

theorem Keeps.loopWays
    (forgets : ∀ (state : State) (choices : List Address), holds state → holds { state with choices := choices })
    (bounds : Bounds) (keeps : ∀ trail, Keeps holds (passOn trail)) :
    Keeps holds (loopWays bounds greed canBeEmpty trail passOn) := by
  intro states held state member
  obtain ⟨_, _, -, -, kept⟩ := Brings.loopWays (fun _ => forgets) (fun _ => keeps) bounds held state member
  exact kept

theorem Keeps.plannedLoopWays (bounds : Bounds) (keeps : Keeps holds pass) :
    Keeps holds (Plan.loopWays bounds greed canBeEmpty pass) := by
  intro states held state member
  obtain ⟨_, _, -, -, kept⟩ := Brings.plannedLoopWays (fun _ => keeps) bounds held state member
  exact kept

end Invariants

end Parts

/-- What holds of the states that a match comes to which began at `origin` and has passed through `place`. -/
structure Sound (origin place : Cursor) (state : State) : Prop where
  onward : place.Reaches state.cursor
  captured : ∀ capture ∈ state.groups, capture.2.IsAhead origin

section Trees

variable {origin place : Cursor} {mode : Mode}

namespace Sound

theorem start (cursor : Cursor) : Sound cursor cursor (.start cursor) := ⟨.refl cursor, fun _ member => nomatch member⟩

theorem here {state : State} (sound : Sound origin place state) : Sound origin state.cursor state :=
  ⟨.refl state.cursor, sound.captured⟩

theorem forgets (state : State) (choices : List Address) (sound : Sound origin place state) :
    Sound origin place { state with choices := choices } := ⟨sound.onward, sound.captured⟩

theorem read? {state after : State} {test : Char → Bool} (reads : state.read? test = some after)
    (sound : Sound origin place state) : Sound origin place after := by
  obtain ⟨⟨before, _ | ⟨c, rest⟩⟩, left, groups, choices, left_eq⟩ := state
  · cases reads
  · simp only [State.read?] at reads
    split at reads
    · cases reads
      exact ⟨sound.onward.trans (.cons before c rest), sound.captured⟩
    · cases reads

theorem backTo {state earlier : State} (sound : Sound origin earlier.cursor state)
    (before : Sound origin place earlier) : Sound origin place (state.backTo earlier) :=
  ⟨before.onward, sound.captured⟩

theorem record {before state : State} (sound : Sound origin before.cursor state) (entered : Sound origin place before)
    (reaches : origin.Reaches place) (group : Nat) : Sound origin place (state.record group before.cursor) := by
  refine ⟨entered.onward.trans sound.onward, List.forall_mem_cons.mpr ⟨?_, sound.captured⟩⟩
  exact ⟨reaches.trans entered.onward, sound.onward⟩

theorem withoutGroups {state : State} : Sound origin state.cursor state.withoutGroups :=
  ⟨.refl state.cursor, fun _ member => nomatch member⟩

theorem goTo {state later : State} (sound : Sound origin state.cursor later) (before : Sound origin place state)
    (first count : Nat) : Sound origin place (state.goTo later first count) := by
  refine ⟨before.onward.trans sound.onward, fun capture member => ?_⟩
  rcases List.mem_append.mp member with member | member
  · exact sound.captured capture member
  · exact before.captured capture (List.mem_filter.mp member).1

end Sound

private theorem look_keeps {pass : List State → List State}
    (keeps : ∀ place, origin.Reaches place → Keeps (Sound origin place) pass) (reaches : origin.Reaches place)
    (positive : Bool) :
    Keeps (Sound origin place) fun states => states.filterMap fun state =>
      match pass [state] with
      | after :: _ => if positive then some (after.backTo state) else none
      | [] => if positive then none else some state := by
  refine .filterMap fun state sound after moved => ?_
  split at moved
  next reached _ found =>
    have ahead : Sound origin state.cursor reached :=
      (keeps state.cursor (reaches.trans sound.onward)).single sound.here reached (by simp [found])
    cases positive with
    | true =>
      cases moved
      exact ahead.backTo sound
    | false => cases moved
  next =>
    cases positive with
    | true => cases moved
    | false =>
      cases moved
      exact sound

private theorem capture_keeps {pass : List State → List State}
    (keeps : ∀ place, origin.Reaches place → Keeps (Sound origin place) pass) (reaches : origin.Reaches place)
    (group : Nat) :
    Keeps (Sound origin place) fun states =>
      fresh (states.flatMap fun state => (pass [state]).map (·.record group state.cursor)) := by
  refine .fresh (.flatMap fun state sound after member => ?_)
  obtain ⟨reached, found, rfl⟩ := List.mem_map.mp member
  have inside := (keeps state.cursor (reaches.trans sound.onward)).single sound.here reached found
  exact inside.record sound reaches group

private theorem commit_keeps {pass : List State → List State} (keeps : Keeps (Sound origin place) pass) :
    Keeps (Sound origin place) fun states => fresh (states.filterMap fun state => (pass [state]).head?) :=
  .fresh (.filterMap fun _ sound after first => keeps.single sound after (List.mem_of_mem_head? first))

/-- The ways through a regex lead on, and capture only what lies ahead of where the match began. -/
theorem ways_keeps (regex : Regex) (group : Nat) (trail : Trail) (reaches : origin.Reaches place) :
    Keeps (Sound origin place) (regex.ways mode group trail) := by
  -- A group is entered from places further on, so the place is as free as the number of the group.
  induction regex generalizing place group trail with
  | empty => exact fun _ held => held
  | char set => exact .filterMap fun _ sound _ reads => sound.read? reads
  | atStart | atEnd => exact .filter _
  | seq first second ihFirst ihSecond =>
    exact (ihFirst group (trail.inside 0) reaches).seq (ihSecond (group + first.groupCount) (trail.inside 1) reaches)
  | alt first second ihFirst ihSecond =>
    refine .fresh (.flatMap fun state sound after member => ?_)
    split at member
    · cases member
    next chosen choice =>
      have chosen := choose?_keeps Sound.forgets trail _ _ choice sound
      rcases List.mem_append.mp member with member | member
      · exact (ihFirst group (trail.inside 0) reaches).single chosen after member
      · exact (ihSecond (group + first.groupCount) (trail.inside 1) reaches).single chosen after member
  | loop body bounds greed ih => exact .loopWays Sound.forgets _ fun trail => ih group trail reaches
  | look positive body ih => exact look_keeps (fun _ => ih group none) reaches positive
  | capture name body ih => exact capture_keeps (fun _ => ih (group + 1) (trail.inside 0)) reaches group
  | commit body ih => exact commit_keeps (ih group (trail.inside 0) reaches)

/-- The ways through a plan lead on, and capture only what lies ahead of where the match began. A part that is left to
itself captures all of its groups anew, so what it starts with needs no capture. -/
theorem plan_ways_keeps (plan : Plan) (group : Nat) (reaches : origin.Reaches place) :
    Keeps (Sound origin place) (plan.ways mode group) := by
  induction plan generalizing place group with
  | whole regex =>
    refine .fresh (.filterMap fun state sound after moved => ?_)
    obtain ⟨reached, first, rfl⟩ := Option.map_eq_some_iff.mp moved
    have alone : Keeps (Sound origin state.cursor) (regex.ways mode group none) :=
      ways_keeps regex group none (reaches.trans sound.onward)
    have entered := alone.single Sound.withoutGroups reached (List.mem_of_mem_head? first)
    exact entered.goTo sound group regex.groupCount
  | seq first second ihFirst ihSecond => exact (ihFirst group reaches).seq (ihSecond (group + first.groupCount) reaches)
  | alt first second ihFirst ihSecond =>
    refine .fresh (.flatMap fun state sound after member => ?_)
    rcases List.mem_append.mp member with member | member
    · exact (ihFirst group reaches).single sound after member
    · exact (ihSecond (group + first.groupCount) reaches).single sound after member
  | loop body bounds greed canBeEmpty ih => exact .plannedLoopWays bounds (ih group reaches)
  | look positive body ih => exact look_keeps (fun _ => ih group) reaches positive
  | capture body ih => exact capture_keeps (fun _ => ih (group + 1)) reaches group
  | commit body ih => exact commit_keeps (ih group reaches)

end Trees

section Searches

variable {plan : Plan} {mode : Mode} {cursor : Cursor} {found : Found}

private theorem exists_state_of_matchAt? (matched : plan.matchAt? mode cursor = some found) :
    ∃ state ∈ plan.ways mode 0 [.start cursor], state.groups.lookup 0 = some found.whole ∧
      state.groups = found.groups := by
  unfold Plan.matchAt? at matched
  split at matched
  · cases matched
  next state states ways =>
    obtain ⟨whole, first, rfl⟩ := Option.map_eq_some_iff.mp matched
    exact ⟨state, by simp [ways], first, rfl⟩

/-- What is found is a state that the ways of the plan lead to from some place further on. A match is what group number
zero captured. -/
theorem exists_state_of_search? (searched : plan.search? mode cursor = some found) :
    ∃ place, cursor.Reaches place ∧ ∃ state ∈ plan.ways mode 0 [.start place],
      state.groups.lookup 0 = some found.whole ∧ state.groups = found.groups := by
  obtain ⟨before, rest⟩ := cursor
  unfold Plan.search? at searched
  simp only at searched
  induction rest generalizing before with
  | nil => exact ⟨_, .refl _, exists_state_of_matchAt? searched⟩
  | cons c rest ih =>
    rw [Plan.searchFrom?, Option.orElse_eq_or, Option.or_eq_some_iff] at searched
    rcases searched with here | ⟨-, later⟩
    · exact ⟨_, .refl _, exists_state_of_matchAt? here⟩
    · obtain ⟨place, reaches, state⟩ := ih (c :: before) later
      exact ⟨place, (Cursor.Reaches.cons before c rest).trans reaches, state⟩

theorem isAhead_of_search? (searched : plan.search? mode cursor = some found) :
    found.groups.lookup 0 = some found.whole ∧ ∀ capture ∈ found.groups, capture.2.IsAhead cursor := by
  obtain ⟨place, reaches, state, member, whole, same⟩ := exists_state_of_search? searched
  rw [← same]
  refine ⟨whole, fun capture captured => ?_⟩
  have sound := Brings.single (plan_ways_keeps plan 0 (.refl place)) (Sound.start place) state member
  exact (sound.captured capture captured).mono reaches

theorem whole_isAhead (searched : plan.search? mode cursor = some found) : found.whole.IsAhead cursor := by
  obtain ⟨whole, captured⟩ := isAhead_of_search? searched
  obtain ⟨front, back, groups, -⟩ := List.lookup_eq_some_iff.mp whole
  exact captured (0, found.whole) (by simp [groups])

end Searches

end Proofs.Progress
end FluentPattern
