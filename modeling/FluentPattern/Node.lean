import FluentPattern.Repetition

/-! The tree a pattern is built as. Its leaves hold raw pattern text; the combinators in `Node.Combinators` are
the ones that escape what callers pass. -/

namespace FluentPattern

/-- A part of a character class: characters as they are written, or a range between two of them. -/
inductive ClassPart where
  | characters (text : Text)
  | range (first last : Text)
deriving DecidableEq

/-- A piece of a pattern. -/
inductive Node where
  /-- Nothing at all; the unit of sequences. -/
  | empty
  /-- Pattern text, written as it is. -/
  | exact (text : Text)
  /-- One character that is, or is not, of the class. -/
  | oneOf (parts : List ClassPart) (negated : Bool)
  /-- Two pieces one after the other. -/
  | sequence (first second : Node)
  /-- Either of two pieces, the first one preferred. -/
  | choice (first second : Node)
  | repeated (body : Node) (times : Repetition)
  /-- A piece, and a condition on the text that follows it: `ahead` matches there, or it does not. -/
  | lookahead (subject ahead : Node) (positive : Bool)
  | capture (body : Node) (name : Option Text)
deriving DecidableEq

namespace Node

instance : Inhabited Node := ⟨.empty⟩

/-- Whether the tree is the empty one; trees that merely have no text are not. -/
def isEmpty : Node → Bool
  | .empty => true
  | _ => false

def isChoice : Node → Bool
  | .choice .. => true
  | _ => false

end Node
end FluentPattern
