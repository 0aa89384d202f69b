import FluentPattern.Regex.Passes
import FluentPattern.Regex.Shape

/-! The ways in which a regex matches, in order of preference: an earlier branch comes before a later one, another
pass of a greedy repetition before none, of a lazy one after none. The ways are followed from all states of a list
together, so that a place that several of them lead to is dealt with once.

A way never makes the same choice twice at one place. So a repetition without limit whose passes can be empty ends
after an empty pass, and even a pass that reads something cannot start with the choices that the pass before it has
ended with. Only in such repetitions choices have to be noted; everywhere else a way does not come back to a choice
before it has read something. -/

namespace FluentPattern.Regex

/-- The bounds that a repetition of nothing comes down to: one pass does what several do. -/
def voidBounds (bounds : Bounds) : Bounds := ⟨min bounds.least 1, some (min (bounds.most.getD 1) 1)⟩

def Trail.choice (trail : Trail) (number : Nat) : Trail := trail.inside (2 * number)

def Trail.pass (trail : Trail) (number : Nat) : Trail := trail.inside (2 * number + 1)

/-- The states from which a greedy repetition can be entered whose next pass is up to a choice. -/
def enterable (greed : Greed) (choice : Trail) (states : List State) : List State :=
  match greed with
  | .greedy => states.filter (!·.hasChosen choice)
  | .lazy => states

/-- The ways of a repetition without limit, given the ways of a pass with a trail. The passes that there have to be are
different parts of it; the last one of them, or else the first pass, is gone through again and again. -/
def endlessWays (least : Nat) (greed : Greed) (canBeEmpty : Bool) (trail : Trail)
    (pass : Trail → List State → List State) (states : List State) : List State :=
  let numbered (number : Nat) : List State → List State := pass (trail.pass number)
  match least, canBeEmpty with
  | 0, true =>
    let choice := trail.choice 1
    (roamFrom greed (·.choose? (trail.choice 0)) (·.choose? choice) (enterable greed choice) (numbered 0) states).states
  | 0, false => (roamAll greed false (·.choose? (trail.choice 0)) (numbered 0) states {}).states
  | least + 1, _ =>
    let choice := trail.choice (least + 1)
    let states := if least = 0 then enterable greed choice states else states
    (roamAll greed false (·.choose? choice) (numbered least) (advance numbered (least + 1) 0 states) {}).states

/-- The ways of a repetition, given the ways of a pass with a trail. The passes that there have to be and those that may
follow up to a limit are different parts of it. No more passes are gone through than can matter; but on a trail all of
them are, as the way may come back to any one of them. -/
def loopWays (bounds : Bounds) (greed : Greed) (canBeEmpty : Bool) (trail : Trail)
    (pass : Trail → List State → List State) (states : List State) : List State :=
  let least := if trail.isNone then min bounds.least (passLimit states) else bounds.least
  match bounds.most with
  | some most =>
    let numbered (number : Nat) : List State → List State := pass (trail.pass number)
    climbAll greed (fun number state => state.choose? (trail.choice number)) numbered
      (min (most - bounds.least) (passLimit states)) least (advance numbered least 0 states)
  | none =>
    if trail.isNone && canBeEmpty then
      endlessWays least greed canBeEmpty (some []) pass (states.map State.anew)
    else endlessWays least greed canBeEmpty trail pass states

/-- The ways to match a regex, whose first capturing group has the number `group`, from some states. -/
def ways (mode : Mode) : Regex → (group : Nat) → Trail → List State → List State
  | .empty, _, _, states => states
  | .char set, _, _, states => states.filterMap (·.read? (set.contains mode))
  | .atStart, _, _, states => states.filter (·.isStart mode.multiLine)
  | .atEnd, _, _, states => states.filter (·.isEnd mode.multiLine)
  | .seq first second, group, trail, states =>
    second.ways mode (group + first.groupCount) (trail.inside 1) (first.ways mode group (trail.inside 0) states)
  | .alt first second, group, trail, states =>
    fresh (states.flatMap fun state =>
      match state.choose? trail with
      | none => []
      | some state =>
        first.ways mode group (trail.inside 0) [state] ++
          second.ways mode (group + first.groupCount) (trail.inside 1) [state])
  | .loop body bounds greed, group, trail, states =>
    loopWays (if body.isVoid then voidBounds bounds else bounds) greed (body.minSize = 0) trail (body.ways mode group)
      states
  | .look positive body, group, _, states =>
    states.filterMap fun state =>
      match body.ways mode group none [state] with
      | after :: _ => if positive then some (after.backTo state) else none
      | [] => if positive then none else some state
  | .capture _ body, group, trail, states =>
    fresh (states.flatMap fun state =>
      (body.ways mode (group + 1) (trail.inside 0) [state]).map (·.record group state.cursor))
  | .commit body, group, trail, states =>
    fresh (states.filterMap fun state => (body.ways mode group (trail.inside 0) [state]).head?)

end FluentPattern.Regex
