import FluentPattern.Regex.Ways

/-! How a regex is matched that is not plain. Its plain parts are left to themselves as far as possible: such a
part is matched in the first way there is, and captures all of its groups anew. That is done where nothing comes
after the part that could ask for another way, and where every way reads the same number of characters, at either end
of a sequence. The rest is matched piece by piece.

Outside of the plain parts a repetition without limit ends with a pass that reads nothing, but keeps what this pass
captured. -/

namespace FluentPattern.Regex

/-- What is left to itself in a regex, and what is matched piece by piece. -/
inductive Plan where
  /-- A plain regex, matched in the first way there is. -/
  | whole (regex : Regex)
  | seq (first second : Plan)
  | alt (first second : Plan)
  | loop (body : Plan) (bounds : Bounds) (greed : Greed) (canBeEmpty : Bool)
  | look (positive : Bool) (body : Plan)
  | capture (body : Plan)
  | commit (body : Plan)
deriving DecidableEq

/-- Where a part stands in a regex. -/
inductive Position where
  /-- It is a part of its own. -/
  | own
  /-- It is the rest of a sequence, of which all earlier pieces have been left to themselves. -/
  | leading
  /-- It is the rest of another sequence. -/
  | rest
deriving DecidableEq

/-- The plan for a part of a regex; `final` says that nothing comes after the part that could ask for another way. -/
def planFor (regex : Regex) (position : Position) (final : Bool) : Plan :=
  if final && regex.isPlain then .whole regex
  else
    match regex with
    | .seq first second =>
      if first.isPlain && first.hasFixedSize && second.isPlain && second.hasFixedSize then .whole regex
      else if position ≠ .rest && first.isPlain && first.hasFixedSize then
        .seq (.whole first) (second.planFor .leading final)
      else .seq (first.planFor .own false) (second.planFor .rest final)
    | .alt first second => .alt (first.planFor .own final) (second.planFor .own final)
    | .loop body bounds greed =>
      .loop (body.planFor .own (final && bounds = Repetition.optional.bounds)) bounds greed (body.minSize = 0)
    | .look positive body => .look positive (body.planFor .own true)
    | .capture _ body => .capture (body.planFor .own final)
    | .commit body => .commit (body.planFor .own true)
    | _ => .whole regex

namespace Plan

def groupCount : Plan → Nat
  | .whole regex => regex.groupCount
  | .seq first second | .alt first second => first.groupCount + second.groupCount
  | .loop body _ _ _ | .look _ body | .commit body => body.groupCount
  | .capture body => body.groupCount + 1

/-- The plain regexes that are left to themselves. -/
def wholes : Plan → List Regex
  | .whole regex => [regex]
  | .seq first second | .alt first second => first.wholes ++ second.wholes
  | .loop body _ _ _ | .look _ body | .commit body | .capture body => body.wholes

/-- The ways of a repetition, given the ways of a pass. Reversed bounds mean the lower one of them. -/
def loopWays (bounds : Bounds) (greed : Greed) (canBeEmpty : Bool) (pass : List State → List State)
    (states : List State) : List State :=
  match bounds.most with
  | some most =>
    let least := min (min bounds.least most) (passLimit states)
    climbAll greed (fun _ => some) (fun _ => pass) (min (most - bounds.least) (passLimit states)) least
      (advance (fun _ => pass) least 0 states)
  | none =>
    (roamAll greed canBeEmpty some pass
      (advance (fun _ => pass) (min bounds.least (passLimit states)) 0 states) {}).states

/-- The ways to match what is planned, whose first capturing group has the number `group`, from some states. -/
def ways (mode : Mode) : Plan → (group : Nat) → List State → List State
  | .whole regex, group, states =>
    fresh (states.filterMap fun state =>
      (regex.ways mode group none [state.withoutGroups]).head?.map (state.goTo · group regex.groupCount))
  | .seq first second, group, states =>
    second.ways mode (group + first.groupCount) (first.ways mode group states)
  | .alt first second, group, states =>
    fresh (states.flatMap fun state =>
      first.ways mode group [state] ++ second.ways mode (group + first.groupCount) [state])
  | .loop body bounds greed canBeEmpty, group, states =>
    loopWays bounds greed canBeEmpty (body.ways mode group) states
  | .look positive body, group, states =>
    states.filterMap fun state =>
      match body.ways mode group [state] with
      | after :: _ => if positive then some (after.backTo state) else none
      | [] => if positive then none else some state
  | .capture body, group, states =>
    fresh (states.flatMap fun state =>
      (body.ways mode (group + 1) [state]).map (·.record group state.cursor))
  | .commit body, group, states =>
    fresh (states.filterMap fun state => (body.ways mode group [state]).head?)

end Plan

/-- A regex with a group of number zero around what is matched. Where a sequence ends in a condition on the text
ahead, that text is matched as if it belonged to the regex, after the group. -/
def framed (regex : Regex) : Regex :=
  match regex.pieces.getLast? with
  | some (.look true ahead) =>
    match regex with
    | .seq .. => seqAll [.capture none (seqAll regex.pieces.dropLast), ahead]
    | _ => .capture none regex
  | _ => .capture none regex

/-- How a regex is matched. Its groups have numbers from zero on. -/
def plan (regex : Regex) : Plan := regex.framed.planFor .own true

/-- The number of groups that a match reports, the whole match included. In a plain regex what is repeated zero times
is dropped with its groups, and the groups end with the last one that is left. -/
def reportedGroups (regex : Regex) : Nat :=
  if regex.framed.isPlain then regex.framed.groupBound 0 else regex.framed.groupCount

end FluentPattern.Regex
