import FluentPattern.Node.Combinators
import FluentPattern.Node.Render
import FluentPattern.Number
import FluentPattern.Pattern
import FluentPattern.Text.Escape

/-! Builders: a tree with the text that anchors it at either side and the flags. A builder is a value; what
changes it gives another one. -/

namespace FluentPattern

/-- A pattern that is being built. -/
structure Builder where
  /-- What is written before the tree: an anchor or nothing. -/
  front : Text
  node : Node
  /-- What is written after the tree. -/
  back : Text
  flags : FlagSet
deriving DecidableEq

/-- What a builder can be made from. What is not given is empty; without flags, the standard ones are set. A tree goes
before a text, and a text is escaped unless `escaped` says no. -/
structure BuilderOptions where
  front : Option Text := none
  node : Option Node := none
  back : Option Text := none
  flags : Option Text := none
  source : Option Text := none
  escaped : Option Bool := none

def BuilderOptions.body (options : BuilderOptions) : Node :=
  match options.node, options.source with
  | some node, _ => node
  | none, some source => .exact (if options.escaped.getD true then source.escapeForPattern else source)
  | none, none => .empty

namespace Builder

def ofOptions (options : BuilderOptions) : Builder where
  front := options.front.getD []
  node := options.body
  back := options.back.getD []
  flags := (options.flags.map FlagSet.ofText).getD .standard

def ofNode (node : Node) : Builder := ofOptions { node := some node }

def empty : Builder := ofOptions {}

def isAnchored (builder : Builder) : Bool := !builder.front.isEmpty || !builder.back.isEmpty

/-- The pattern text. An anchor takes the whole of a choice, so that is put in a group. -/
def source (builder : Builder) : Text :=
  if builder.node.isEmpty && !builder.isAnchored then emptyGroup
  else
    builder.front ++
      (if builder.isAnchored && builder.node.isChoice then grouped builder.node.render else builder.node.render) ++
      builder.back

def literal (builder : Builder) : Text := ['/'] ++ builder.source ++ ['/'] ++ builder.flags.letters

def compile (builder : Builder) : Except Error Pattern := Pattern.compile builder.source builder.flags.letters

/-- Whether a text that goes on after this one starts with an escaped character: it ends in an odd number of
backslashes. The text is given from its end. -/
def endsEscaping (backwards : List Char) : Bool := (backwards.takeWhile (· == '\\')).length % 2 == 1

def splitFront : Text → Text × Text
  | '^' :: body => (['^'], body)
  | body => ([], body)

/-- Splits an anchor off the end of a pattern text, unless it is escaped. -/
def splitBack (text : Text) : Text × Text :=
  match text.reverse with
  | '$' :: backwards => if endsEscaping backwards then (text, []) else (backwards.reverse, ['$'])
  | _ => (text, [])

/-- Takes a compiled pattern apart: its anchors are those of the builder, and what is between them is raw text. -/
def ofPattern (pattern : Pattern) : Builder :=
  let (front, rest) := splitFront (if pattern.source = emptyGroup then [] else pattern.source)
  let (body, back) := splitBack rest
  ofOptions
    { front := some front, back := some back, flags := some pattern.flags.letters, source := some body,
      escaped := some false }

/-- What the steps of a builder accept. -/
inductive Value where
  /-- Text that stands for itself. -/
  | text (text : Text)
  /-- A number, written as it is. -/
  | number (number : Number)
  | pattern (pattern : Pattern)
  | builder (builder : Builder)

def of : Value → Builder
  | .text text => ofOptions { source := some text }
  | .number number => ofOptions { source := some number.text, escaped := some false }
  | .pattern pattern => ofPattern pattern
  | .builder builder => builder

/-- The builder of a value of any kind; what no step accepts gives the empty one. -/
def ofAny (value : Option Value) : Builder := (value.map of).getD empty

/-- Matches any one of the values, the earlier ones preferred. -/
def anyOfAll (values : List Value) : Builder := ofNode (.choiceAll (values.map fun value => (of value).node))

/-- Matches all of the values in order. -/
def inOrder (values : List Value) : Builder := ofNode (.sequenceAll (values.map fun value => (of value).node))

end Builder
end FluentPattern
