import FluentPattern.Node
import FluentPattern.Text.Group

/-! The text of a tree. A sign binds to the least text before it, so a piece is put in a group wherever its
neighbours would otherwise take only a part of it: a choice inside a sequence, and anything longer than one
item before a repetition. -/

namespace FluentPattern

def ClassPart.render : ClassPart → Text
  | .characters text => text
  | .range first last => first ++ ['-'] ++ last

namespace Node

/-- Whether a repetition after the text of the node takes the whole of it: a single character, a class, a group. -/
def isItem : Node → Bool
  | .exact text => text.length == 1
  | .oneOf .. | .capture .. => true
  | _ => false

/-- The sign that opens a condition on the text ahead. -/
def aheadSign (positive : Bool) : Text := ['(', '?', if positive then '=' else '!']

def captureSign : Option Text → Text
  | none => ['(']
  | some name => ['(', '?', '<'] ++ name ++ ['>']

/-- The text of a tree, without anchors. -/
def render : Node → Text
  | .empty => []
  | .exact text => text
  | .oneOf parts negated => ['['] ++ (if negated then ['^'] else []) ++ parts.flatMap ClassPart.render ++ [']']
  | .sequence first second =>
    (if first.isChoice then grouped first.render else first.render) ++
      (if second.isChoice then grouped second.render else second.render)
  | .choice first second => first.render ++ ['|'] ++ second.render
  | .repeated body times => (if body.isItem then body.render else grouped body.render) ++ times.text
  | .lookahead subject ahead positive =>
    (if subject.isChoice then grouped subject.render else subject.render) ++
      aheadSign positive ++ ahead.render ++ [')']
  | .capture body name => captureSign name ++ body.render ++ [')']

end Node
end FluentPattern
