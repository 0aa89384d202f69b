import FluentPattern.Regex.Plan
import FluentPattern.Regex.Token

/-! What is too large to be compiled. Groups can be nested only so deep. The plain parts of a regex are compiled to
automata, in which each pass of a counted repetition has states of its own, and each class that is named by a letter
all of its ranges; so the numbers of passes are limited, and the memory that automata take.

The limit of memory is applied to counted repetitions and to classes that are named by a letter, and to nothing else.
This is an idealization: other text and classes in brackets take memory too (`size` counts `stateSize` for each byte of
a character), but weigh nothing in `heavySize`. They could pass the limit by themselves only if some hundred thousand
characters were written; a regex of nothing else is taken to be small enough at any length. -/

namespace FluentPattern.Regex

/-- The depth to which groups are nested, where `depth` of them are open. -/
def nesting (depth : Nat) : List Token → Nat
  | [] => depth
  | .opening _ :: rest => max depth (nesting (depth + 1) rest)
  | .closing :: rest => max depth (nesting (depth - 1) rest)
  | _ :: rest => nesting depth rest

/-- How deep groups may be nested. -/
def nestingLimit : Nat := 63

/-- The greatest number of passes that can be asked for in an automaton. -/
def countLimit : Nat := UInt32.size - 1

/-- The bytes that the counted repetitions and the named classes of an automaton may take. -/
def memoryLimit : Nat := 10 * 1024 * 1024

/-- How deep the parts of a plain regex may be nested, with sequences, alternations and repetitions counted. -/
def depthLimit : Nat := 250

/-- The bytes that a state of an automaton takes. -/
def stateSize : Nat := 32

/-- What a set of characters takes in an automaton, which reads the bytes of the UTF-8 form. -/
structure Spread where
  /-- The number of ranges of single bytes. -/
  narrow : Nat
  /-- The bytes that the characters of several bytes take. -/
  wide : Nat

namespace Spread

def add (first second : Spread) : Spread := ⟨first.narrow + second.narrow, first.wide + second.wide⟩

def ofChar (c : Char) : Spread := if c.utf8Size = 1 then ⟨1, 0⟩ else ⟨0, 36 * c.utf8Size⟩

/-- All characters of several bytes. -/
def allWide : Spread := ⟨0, 864⟩

/-- A range of ASCII characters and their case variants, of which those of `k` and `s` have several bytes. -/
def withCaseVariants (first last : Char) : Spread :=
  let within (c : Char) : Bool := first ≤ c && c ≤ last
  ⟨2, (if within 'k' || within 'K' then 36 * 3 else 0) + if within 's' || within 'S' then 36 * 2 else 0⟩

def ofShorthand : Shorthand → Spread
  | .digit => ⟨1, 5024⟩
  | .word => ⟨4, 49750⟩
  | .space => ⟨2, 544⟩

def size (spread : Spread) : Nat :=
  2 * stateSize + (if spread.wide = 0 then 8 * spread.narrow else 36 * spread.narrow + spread.wide)

end Spread

end Regex

/-- The ranges of a set, counted as if no two of them overlapped. -/
def CharSet.spread (mode : Mode) : CharSet → Regex.Spread
  | .nothing => ⟨0, 0⟩
  | .single c =>
    if mode.ignoreCase then ((Unicode.caseVariants c).map .ofChar).foldl .add ⟨0, 0⟩ else .ofChar c
  | .range first last =>
    if last.utf8Size = 1 then
      if mode.ignoreCase then Regex.Spread.withCaseVariants first last else ⟨1, 0⟩
    else if first.utf8Size = last.utf8Size then ⟨0, 72 * last.utf8Size⟩
    else Regex.Spread.allWide.add ⟨if first.utf8Size = 1 then 1 else 0, 0⟩
  | .shorthand name => .ofShorthand name
  | .anyCharacter => Regex.Spread.allWide.add ⟨if mode.dotAll then 1 else 2, 0⟩
  | .union first second | .combined _ first second => (first.spread mode).add (second.spread mode)
  | .brackets negated inside =>
    if negated then ((inside.spread mode).add .allWide).add ⟨1, 0⟩ else inside.spread mode

/-- Whether a part of a set is a class that is named by a letter. -/
def CharSet.hasShorthand : CharSet → Bool
  | .nothing | .single _ | .range .. | .anyCharacter => false
  | .shorthand _ => true
  | .union first second | .combined _ first second => first.hasShorthand || second.hasShorthand
  | .brackets _ inside => inside.hasShorthand

/-- The bytes that a set takes in an automaton; a lone character takes a state for each of its bytes. -/
def CharSet.size (mode : Mode) : CharSet → Nat
  | .single c =>
    if mode.ignoreCase && (Unicode.caseVariants c).length != 1 then ((CharSet.single c).spread mode).size
    else Regex.stateSize * c.utf8Size
  | set => (set.spread mode).size

namespace Regex

/-- The bytes that a plain regex takes in an automaton. -/
def size (mode : Mode) : Regex → Nat
  | .empty => 0
  | .char set => set.size mode
  | .atStart | .atEnd => stateSize
  | .seq first second => first.size mode + second.size mode
  | .alt first second => first.size mode + second.size mode + 2 * stateSize + 8
  | .loop body bounds _ =>
    let pass := body.size mode
    match bounds.most with
    | some most => most * pass + (most - bounds.least) * (stateSize + 8) + stateSize
    | none => max bounds.least 1 * pass + stateSize + 8
  | .capture _ body => body.size mode + 2 * stateSize
  | .look _ body | .commit body => body.size mode

/-- The bytes that the counted repetitions and the named classes of a plain regex take. Only these are held against
`memoryLimit`; all else weighs nothing, however much of it there is. -/
def heavySize (mode : Mode) : Regex → Nat
  | .empty | .atStart | .atEnd => 0
  | .char set => if set.hasShorthand then set.size mode else 0
  | .seq first second | .alt first second => first.heavySize mode + second.heavySize mode
  | .loop body bounds greed =>
    if max bounds.least (bounds.most.getD 1) ≤ 1 then body.heavySize mode
    else (Regex.loop body bounds greed).size mode
  | .look _ body | .commit body | .capture _ body => body.heavySize mode

/-- Whether the numbers of all repetitions can be asked for in an automaton. -/
def hasSmallCounts : Regex → Bool
  | .empty | .char _ | .atStart | .atEnd => true
  | .seq first second | .alt first second => first.hasSmallCounts && second.hasSmallCounts
  | .loop body bounds _ => bounds.least ≤ countLimit && bounds.most.getD 0 ≤ countLimit && body.hasSmallCounts
  | .look _ body | .commit body | .capture _ body => body.hasSmallCounts

def hasReversedBounds : Regex → Bool
  | .empty | .char _ | .atStart | .atEnd => false
  | .seq first second | .alt first second => first.hasReversedBounds || second.hasReversedBounds
  | .loop body bounds _ => bounds.reversed || body.hasReversedBounds
  | .look _ body | .commit body | .capture _ body => body.hasReversedBounds

/-- What a part of a plain regex stands in. -/
inductive Surroundings where
  | alone
  | branch
  | piece
  | repetition
  /-- It is the rest of a sequence. -/
  | sequence
  /-- It is the rest of an alternation. -/
  | alternation
deriving DecidableEq

/-- How deep the parts of a plain regex are nested. A sequence in a sequence or a repetition, an alternation in
anything but a capturing group, and a repetition of a repetition need a group around them. -/
def depth (mode : Mode) : Regex → Surroundings → Nat
  | .empty, _ | .look .., _ | .commit _, _ => 0
  | .char (.brackets ..), _ => if mode.ignoreCase then 2 else 1
  | .char .anyCharacter, _ => if mode.dotAll then 1 else 0
  | .char _, _ => if mode.ignoreCase then 1 else 0
  | .atStart, _ | .atEnd, _ => if mode.multiLine then 1 else 0
  | .seq first second, surroundings =>
    let inner := max (first.depth mode .piece) (second.depth mode .sequence)
    match surroundings with
    | .sequence => inner
    | .piece | .repetition => inner + 2
    | _ => inner + 1
  | .alt first second, surroundings =>
    let inner := max (first.depth mode .branch) (second.depth mode .alternation)
    match surroundings with
    | .alternation => inner
    | .alone => inner + 1
    | _ => inner + 2
  | .loop body _ _, surroundings => body.depth mode .repetition + if surroundings = .repetition then 2 else 1
  | .capture _ body, _ => body.depth mode .alone + 1

/-- Why a plain regex cannot be compiled to an automaton. -/
def automatonFault? (mode : Mode) (regex : Regex) : Option Fault :=
  if regex.hasReversedBounds then some .reversedBounds
  else if !regex.hasSmallCounts || memoryLimit < regex.heavySize mode then some .tooLarge
  else if depthLimit < regex.depth mode .alone then some .tooDeep
  else none

/-- Why a text cannot be compiled that is read as a regex. -/
def limitFault? (mode : Mode) (source : Text) (regex : Regex) : Option Fault :=
  if nestingLimit < nesting 0 (tokens .engine (.outside .nothing) source) then some .tooDeep
  else regex.plan.wholes.findSome? (automatonFault? mode)

end Regex
end FluentPattern
