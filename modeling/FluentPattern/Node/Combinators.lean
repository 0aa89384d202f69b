import FluentPattern.Error
import FluentPattern.Node
import FluentPattern.Text.Escape

/-! Functions that make trees out of trees. Text that callers pass is escaped here, so that it stands for
itself; what reaches the leaves otherwise is one of the few signs below. -/

namespace FluentPattern.Node

/-- Text that stands for itself. -/
def literal (text : Text) : Node := .exact text.escapeForPattern

/-- One piece after another; nothing before or after a piece leaves the piece alone. -/
def append : Node → Node → Node
  | .empty, second => second
  | first, .empty => first
  | first, second => .sequence first second

/-- Either of two pieces. Only two empty pieces collapse: a choice with one empty side may match nothing. -/
def orElse : Node → Node → Node
  | .empty, .empty => .empty
  | first, second => .choice first second

/-- Joins the pieces that are not empty from the left. -/
def joinAll (join : Node → Node → Node) (nodes : List Node) : Node :=
  match nodes.filter (!·.isEmpty) with
  | [] => .empty
  | first :: rest => rest.foldl join first

def sequenceAll (nodes : List Node) : Node := joinAll .sequence nodes

/-- Any one of the pieces, the earlier ones preferred. -/
def choiceAll (nodes : List Node) : Node := joinAll .choice nodes

def optional (body : Node) : Node := .repeated body .optional

/-- A piece, then another one that may be missing. -/
def maybe (first second : Node) : Node := first.append second.optional

def anyCharacter : Node := .exact ['.']

def classOf (chars : Text) (negated : Bool) : Node := .oneOf [.characters chars.escapeForClass] negated

/-- Then any characters, as many or as few as possible. -/
def anything (node : Node) (isLazy : Bool) : Node :=
  .sequence node (.repeated anyCharacter (.zeroOrMore (.ofLazy isLazy)))

/-- Then at least one character. -/
def something (node : Node) : Node := .sequence node (.repeated anyCharacter .oneOrMore)

/-- Then any characters but the given ones. -/
def anythingBut (node : Node) (chars : Text) (isLazy : Bool) : Node :=
  .sequence node (.repeated (classOf chars true) (.zeroOrMore (.ofLazy isLazy)))

/-- Then at least one character, none of them a given one. -/
def somethingBut (node : Node) (chars : Text) : Node := .sequence node (.repeated (classOf chars true) .oneOrMore)

/-- Then one of the given characters, if there is one. -/
def anyOf (node : Node) (chars : Text) : Node := .sequence node (.repeated (classOf chars false) .optional)

/-- Then at least one of the given characters. -/
def someOf (node : Node) (chars : Text) : Node := .sequence node (.repeated (classOf chars false) .oneOrMore)

/-- Then one of the given characters. -/
def thenOneOf (node : Node) (chars : Text) : Node := .sequence node (classOf chars false)

def zeroOrMore (body : Node) (isLazy : Bool) : Node := .repeated body (.zeroOrMore (.ofLazy isLazy))

def oneOrMore (body : Node) : Node := .repeated body .oneOrMore

/-- The piece where the other one matches right after it. -/
def followedBy (subject ahead : Node) : Node := .lookahead subject ahead true

/-- The piece where the other one does not match right after it. -/
def notFollowedBy (subject ahead : Node) : Node := .lookahead subject ahead false

/-- Then one character in, or in none of, the given ranges. -/
def ranges (node : Node) (pairs : List (Text × Text)) (negated : Bool) : Node :=
  node.append (.oneOf (pairs.map fun (first, last) => .range first.escapeForClass last.escapeForClass) negated)

/-- Takes the items two by two; a last one without partner is dropped. -/
def pairUp : List Text → List (Text × Text)
  | first :: last :: rest => (first, last) :: pairUp rest
  | _ => []

/-- The ranges of a flat list of their bounds, which has to hold an even number of them. -/
def rangePairs (items : List Text) : Except Error (List (Text × Text)) :=
  if items.length % 2 = 1 then .error (.oddRangeList items.length) else .ok (pairUp items)

/-- The piece between two numbers of times, in either order. -/
def repeatedBetween (body : Node) (low high : Option Int) : Node := .repeated body (.ofBounds low high)

def repeatedExactly (body : Node) (count : Nat) : Node := .repeated body (.exactly count)

def tab : Node := .exact ['\\', 't']

/-- A decimal digit of any script. -/
def digit : Node := .exact ['\\', 'd']

def whitespace : Node := .exact ['\\', 's']

/-- A run of characters that occur in words. -/
def word : Node := oneOrMore (.exact ['\\', 'w'])

/-- The end of a line, whichever of the three conventions it follows. -/
def lineBreak : Node :=
  choiceAll [append (.exact ['\\', 'r']) (.exact ['\\', 'n']), .exact ['\\', 'r'], .exact ['\\', 'n']]

end FluentPattern.Node
