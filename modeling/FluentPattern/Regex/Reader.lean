import FluentPattern.Regex.Token

/-! Reading the text of a pattern. Tokens are taken one by one, with a stack of the groups that are still open.
An alternation binds loosest, then a sequence, then a repetition, which takes the one item before it. -/

namespace FluentPattern.Regex

/-- The inside of a group as far as it has been read: the branches that are complete and the pieces of the current
one, each latest first. -/
structure Branches where
  done : List Regex := []
  pieces : List Regex := []
deriving DecidableEq

namespace Branches

def push (branches : Branches) (regex : Regex) : Branches := { branches with pieces := regex :: branches.pieces }

/-- The current branch. Empty pieces leave no trace in it. -/
def current (branches : Branches) : Regex := seqAll (branches.pieces.reverse.filter (!·.isEmpty))

def next (branches : Branches) : Branches := ⟨branches.current :: branches.done, []⟩

def whole (branches : Branches) : Regex := altAll (branches.done.reverse ++ [branches.current])

end Branches

/-- What a group of a kind is to the regex around it. -/
def Opening.close (kind : Opening) (inside : Regex) : Regex :=
  match kind with
  | .plain => inside
  | .capture name => .capture name inside
  | .look positive => .look positive inside

/-- The innermost open group, and the ones around it from the inside out. -/
structure Reading where
  inside : Branches := {}
  around : List (Opening × Branches) := []
deriving DecidableEq

namespace Reading

/-- Changes the last piece, if it can be repeated. -/
def changeLast (dialect : Dialect) (reading : Reading) (change : Regex → Regex) : Except Fault Reading :=
  match reading.inside.pieces with
  | [] => .error .nothingToRepeat
  | piece :: earlier =>
    if dialect.repeatsAll || piece.isRepeatable then
      .ok { reading with inside := { reading.inside with pieces := change piece :: earlier } }
    else .error .nothingToRepeat

/-- Takes one token. -/
def step (dialect : Dialect) (reading : Reading) : Token → Except Fault Reading
  | .item regex => .ok { reading with inside := reading.inside.push regex }
  | .bar => .ok { reading with inside := reading.inside.next }
  | .opening kind => .ok ⟨{}, (kind, reading.inside) :: reading.around⟩
  | .closing =>
    match reading.around with
    | [] => .error .unopenedGroup
    | (kind, outer) :: around => .ok ⟨outer.push (kind.close reading.inside.whole), around⟩
  | .times bounds greed => reading.changeLast dialect fun piece => .loop piece bounds greed
  | .possessive => reading.changeLast dialect .commit
  | .fault fault => .error fault

/-- Takes tokens in order, up to the first fault. -/
def run (dialect : Dialect) (reading : Reading) : List Token → Except Fault Reading
  | [] => .ok reading
  | token :: rest =>
    match reading.step dialect token with
    | .ok next => next.run dialect rest
    | .error fault => .error fault

def finish (reading : Reading) : Except Fault Regex :=
  if reading.around.isEmpty then .ok reading.inside.whole else .error .unclosedGroup

end Reading

/-- The regex that a text is read as. -/
def read (dialect : Dialect) (source : Text) : Except Fault Regex :=
  match ({} : Reading).run dialect (tokens dialect (.outside .nothing) source) with
  | .ok reading => reading.finish
  | .error fault => .error fault

end FluentPattern.Regex
