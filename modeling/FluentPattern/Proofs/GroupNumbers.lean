import FluentPattern.Proofs.Faithfulness
import FluentPattern.Proofs.GroupCaptures
import FluentPattern.Proofs.TextBuilders
import Mathlib.Data.List.Forall2

/-! The numbers and the names of groups. The groups of a pattern are those of its tree, from left to right, whatever else
is written with brackets. So a match has under a number what the group of that number in the tree has captured, and the
same under the name of the group. Only how many groups a match counts is up to the engine: the last ones are left out if
nothing can ever come to pass in them. -/

namespace FluentPattern

namespace Node

/-- Where a tree can stop that is read on its own, and may pass any condition on what must not come next. -/
def leads (mode : Mode) (node : Node) : Cursor → List Cursor :=
  match Regex.read .engine node.render with
  | .ok regex => regex.leads mode
  | .error _ => fun _ => []

end Node

namespace Proofs.GroupNumbers
open Regex Matching Tokens NodeReading SourceReading NodeSoundness TextBuilders Faithfulness GroupCaptures CaptureGroup

section Groups

variable {groups : List (CaptureGroup Node)} {meanings : List (CaptureGroup Regex)}

end Groups

variable {builder : Builder} {pattern : Pattern}

end Proofs.GroupNumbers
end FluentPattern
