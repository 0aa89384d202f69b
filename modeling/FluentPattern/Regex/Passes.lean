import FluentPattern.Regex.State
import FluentPattern.Repetition

/-! Going through the passes of a repetition. What one pass does to a list of states, in order of preference, is given;
the functions of this module say where the repetition as a whole leads, in order of preference too. A greedy
repetition prefers another pass to ending, a lazy one the end. -/

namespace FluentPattern.Regex

/-- As many passes as there have to be. Each pass has a number. -/
def advance (pass : Nat → List State → List State) : (count number : Nat) → List State → List State
  | 0, _, states => states
  | count + 1, number, states =>
    if states.isEmpty then [] else advance pass count (number + 1) (pass number states)

/-- The work on a list of states: the places that have been dealt with, and the states in which the repetition has
ended, latest first. -/
structure Survey where
  seen : Marks := {}
  ended : List State := []
deriving DecidableEq

namespace Survey

/-- Notes that the repetition ends in a state. -/
def finish (survey : Survey) (state : State) : Survey := { survey with ended := state :: survey.ended }

/-- The states in which the repetition ends, in order of preference. -/
def states (survey : Survey) : List State := fresh survey.ended.reverse

end Survey

/-- Adds the ways on from a state between two passes, any number of which may follow. The passes that read something
lead on; one that reads nothing ends the repetition, if such passes count at all, and otherwise leads nowhere. Each
place is dealt with once. There are at most `limit` passes that read something. -/
def roam (greed : Greed) (emptyCounts : Bool) (choose? : State → Option State) (pass : List State → List State) :
    (limit : Nat) → State → Survey → Survey
  | 0, _, survey => survey
  | limit + 1, state, survey =>
    if survey.seen.has state.left then survey
    else
      match choose? state with
      | none => survey
      | some state =>
        let onward (survey : Survey) : Survey :=
          (pass [state]).foldl
            (fun survey after =>
              if after.left < state.left then roam greed emptyCounts choose? pass limit after survey
              else if emptyCounts then survey.finish after
              else survey)
            survey
        let survey := { survey with seen := survey.seen.add state.left }
        match greed with
        | .greedy => (onward survey).finish state
        | .lazy => onward (survey.finish state)

/-- The ways on from some states between two passes, any number of which may follow. -/
def roamAll (greed : Greed) (emptyCounts : Bool) (choose? : State → Option State) (pass : List State → List State)
    (states : List State) (survey : Survey) : Survey :=
  states.foldl (fun survey state => roam greed emptyCounts choose? pass (state.left + 1) state survey) survey

/-- Any number of passes that may read nothing, where the choice for a first pass is made once, before it, and the
choice for another one after each pass. The first pass starts from the states that can enter it. -/
def roamFrom (greed : Greed) (chooseFirst? choose? : State → Option State) (enter pass : List State → List State)
    (states : List State) : Survey :=
  states.foldl
    (fun survey state =>
      match chooseFirst? state with
      | none => survey
      | some state =>
        match greed with
        | .greedy => (roamAll greed false choose? pass (pass (enter [state])) survey).finish state
        | .lazy => roamAll greed false choose? pass (pass (enter [state])) (survey.finish state))
    {}

/-- The work on a list of states where the number of passes counts: the places that have been dealt with, for each
number of passes, and the states in which the repetition has ended, latest first. -/
structure Ascent where
  seen : List Marks := []
  ended : List State := []
deriving DecidableEq

/-- Adds the ways on from a state after which up to `count` passes may follow. -/
def climb (greed : Greed) (choose? : Nat → State → Option State) (pass : Nat → List State → List State) :
    (count number : Nat) → State → Ascent → Ascent
  | 0, _, state, ascent => { ascent with ended := state :: ascent.ended }
  | count + 1, number, state, ascent =>
    let here := ascent.seen.headD {}
    if here.has state.left then ascent
    else
      match choose? number state with
      | none => ascent
      | some state =>
        let onward (ended : List State) : Ascent :=
          (pass number [state]).foldl (fun ascent after => climb greed choose? pass count (number + 1) after ascent)
            ⟨ascent.seen.tail, ended⟩
        match greed with
        | .greedy =>
          let above := onward ascent.ended
          ⟨here.add state.left :: above.seen, state :: above.ended⟩
        | .lazy =>
          let above := onward (state :: ascent.ended)
          ⟨here.add state.left :: above.seen, above.ended⟩

/-- The ways on from some states after which up to `count` passes may follow. -/
def climbAll (greed : Greed) (choose? : Nat → State → Option State) (pass : Nat → List State → List State)
    (count number : Nat) (states : List State) : List State :=
  fresh (states.foldl (fun ascent state => climb greed choose? pass count number state ascent) {}).ended.reverse

/-- The most passes that can matter from some states: one for each character, and one that reads nothing. -/
def passLimit (states : List State) : Nat := (states.map State.left).foldl max 0 + 1

end FluentPattern.Regex
