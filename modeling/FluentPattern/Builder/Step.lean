import FluentPattern.Builder

/-! The steps a pattern is built in. A step changes the tree, the anchors or the flags of a builder. Of the values
that steps take only the tree counts: neither their anchors nor their flags reach the result. Steps that put
something after everything else drop the anchor at the end. -/

namespace FluentPattern.Builder

inductive Step where
  | assertStart (enable : Bool)
  | assertEnd (enable : Bool)
  /-- The value comes next. -/
  | append (value : Value)
  /-- The value may come next. -/
  | maybe (value : Value)
  /-- Everything so far, or else the value. -/
  | orElse (value : Value)
  | anything (isLazy : Bool)
  | anythingBut (chars : Text) (isLazy : Bool)
  | something
  | somethingBut (chars : Text)
  | anyOf (chars : Text)
  | someOf (chars : Text)
  | oneOf (chars : Text)
  | followedBy (value : Value)
  | notFollowedBy (value : Value)
  | ranges (pairs : List (Text × Text)) (negated : Bool)
  | flatRanges (items : List Text) (negated : Bool)
  | lineBreak
  | tab
  | word
  | digit
  | whitespace
  | addFlags (flags : Text)
  | removeFlags (flags : Text)
  | toggleFlag (flag : Char)
  /-- Whether case is ignored. -/
  | ignoreCase (enable : Bool)
  /-- Whether a search stops at the first match. -/
  | stopAtFirst (enable : Bool)
  /-- Whether a search finds all matches. -/
  | findAll (enable : Bool)
  /-- Whether the anchors are those of the whole text. -/
  | singleLine (enable : Bool)
  | repeatBetween (low high : Option Int)
  | repeatExactly (count : Nat)
  | oneOrMore
  | zeroOrMore (isLazy : Bool)
  | capture (name : Option Text)

def mapNode (builder : Builder) (change : Node → Node) : Builder := { builder with node := change builder.node }

/-- Changes the tree at its end, where an anchor would no longer be at the end. -/
def extend (builder : Builder) (change : Node → Node) : Builder := { builder.mapNode change with back := [] }

def setFlag (builder : Builder) (flag : Char) (present : Bool) : Builder :=
  { builder with flags := builder.flags.set flag present }

def valueNode (value : Value) : Node := (of value).node

/-- Takes a step. Only a flat list of ranges can make it fail. -/
def apply (builder : Builder) : Step → Except Error Builder
  | .assertStart enable => .ok { builder with front := if enable then ['^'] else [] }
  | .assertEnd enable => .ok { builder with back := if enable then ['$'] else [] }
  | .append value => .ok (builder.extend (·.append (valueNode value)))
  | .maybe value => .ok (builder.extend (·.maybe (valueNode value)))
  | .orElse value => .ok (builder.mapNode (·.orElse (valueNode value)))
  | .anything isLazy => .ok (builder.mapNode (·.anything isLazy))
  | .anythingBut chars isLazy => .ok (builder.mapNode (·.anythingBut chars isLazy))
  | .something => .ok (builder.mapNode (·.something))
  | .somethingBut chars => .ok (builder.mapNode (·.somethingBut chars))
  | .anyOf chars => .ok (builder.mapNode (·.anyOf chars))
  | .someOf chars => .ok (builder.mapNode (·.someOf chars))
  | .oneOf chars => .ok (builder.mapNode (·.thenOneOf chars))
  | .followedBy value => .ok (builder.mapNode (·.followedBy (valueNode value)))
  | .notFollowedBy value => .ok (builder.mapNode (·.notFollowedBy (valueNode value)))
  | .ranges pairs negated => .ok (builder.mapNode (·.ranges pairs negated))
  | .flatRanges items negated =>
    match Node.rangePairs items with
    | .ok pairs => .ok (builder.mapNode (·.ranges pairs negated))
    | .error error => .error error
  | .lineBreak => .ok (builder.extend (·.append .lineBreak))
  | .tab => .ok (builder.extend (·.append .tab))
  | .word => .ok (builder.extend (·.append .word))
  | .digit => .ok (builder.extend (·.append .digit))
  | .whitespace => .ok (builder.extend (·.append .whitespace))
  | .addFlags flags => .ok { builder with flags := builder.flags.union flags }
  | .removeFlags flags => .ok { builder with flags := builder.flags.difference flags }
  | .toggleFlag flag => .ok (builder.setFlag flag (!builder.flags.contains flag))
  | .ignoreCase enable => .ok (builder.setFlag 'i' enable)
  | .stopAtFirst enable => .ok (builder.setFlag 'g' (!enable))
  | .findAll enable => .ok (builder.setFlag 'g' enable)
  | .singleLine enable => .ok (builder.setFlag 'm' (!enable))
  | .repeatBetween low high => .ok (builder.mapNode (·.repeatedBetween low high))
  | .repeatExactly count => .ok (builder.mapNode (·.repeatedExactly count))
  | .oneOrMore => .ok (builder.mapNode (·.oneOrMore))
  | .zeroOrMore isLazy => .ok (builder.mapNode (·.zeroOrMore isLazy))
  | .capture name => .ok (builder.mapNode (.capture · name))

/-- Takes steps in order, up to the first that fails. -/
def run (builder : Builder) : List Step → Except Error Builder
  | [] => .ok builder
  | step :: rest =>
    match builder.apply step with
    | .ok next => next.run rest
    | .error error => .error error

end FluentPattern.Builder
