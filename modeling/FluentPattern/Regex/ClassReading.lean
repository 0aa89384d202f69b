import FluentPattern.Regex.Escaped
import FluentPattern.Regex.Fault
import FluentPattern.Regex.NamedClass

/-! Reading a character class in brackets, one character at a time. Hyphens at the start of a class stand for
themselves, and so does a closing bracket that comes first. Elsewhere two hyphens, ampersands or tildes in a row are
an operator, and a hyphen between two characters makes a range of them, unless it comes last or right after a range or
an operator. A class can stand inside another one, and some have names there. -/

namespace FluentPattern.Regex

/-- A bracket that is still open: the items since the last operator, and what stands to the left of that operator. -/
structure Bracket where
  negated : Bool := false
  left : Option (CharSet × ClassOperator) := none
  items : CharSet := .nothing
deriving DecidableEq

namespace Bracket

def add (bracket : Bracket) (item : CharSet) : Bracket := { bracket with items := .union bracket.items item }

/-- All that stands in the bracket. The operators bind equally, from left to right. -/
def inside (bracket : Bracket) : CharSet :=
  match bracket.left with
  | none => bracket.items
  | some (left, operator) => .combined operator left bracket.items

/-- Makes all that stands in the bracket the left side of an operator. -/
def operate (bracket : Bracket) (operator : ClassOperator) : Bracket :=
  { bracket with left := some (bracket.inside, operator), items := .nothing }

/-- The set that the bracket means when it is closed. -/
def set (bracket : Bracket) : CharSet := .brackets bracket.negated bracket.inside

end Bracket

/-- How far a class has been read. -/
inductive ClassPhase where
  /-- Right after the opening bracket. -/
  | opened
  /-- Right after the sign that negates the class. -/
  | signed
  /-- After hyphens at the start. -/
  | hyphens
  /-- Where the next item starts. -/
  | between
  /-- After an item that may turn out to be the start of a range. -/
  | item (set : CharSet)
  /-- After the hyphen of a range. -/
  | rangeFrom (first : Char)
deriving DecidableEq

/-- A class that is being read: the innermost open bracket and the ones around it. -/
structure ClassReading where
  inner : Bracket := {}
  outer : List Bracket := []
  phase : ClassPhase := .opened
deriving DecidableEq

/-- What a character does to the reading of a class. -/
inductive ClassStep where
  | more (reading : ClassReading)
  /-- Some of the next characters have been taken as well. -/
  | skip (count : Nat) (reading : ClassReading)
  | closed (set : CharSet)
  | fault (fault : Fault)
deriving DecidableEq

/-- The operator that a character writes together with the next one. -/
def operator? (c : Char) (rest : Text) : Option ClassOperator :=
  if rest.head? ≠ some c then none
  else
    match c with
    | '&' => some .intersection
    | '-' => some .difference
    | '~' => some .symmetricDifference
    | _ => none

namespace ClassReading

def add (reading : ClassReading) (item : CharSet) (phase : ClassPhase) : ClassReading :=
  { reading with inner := reading.inner.add item, phase }

/-- Counts the item at hand as complete. -/
def settle (reading : ClassReading) : ClassReading :=
  match reading.phase with
  | .item set => reading.add set .between
  | _ => reading

def close (reading : ClassReading) : ClassStep :=
  match reading.outer with
  | [] => .closed reading.inner.set
  | around :: outer => .more ⟨around.add reading.inner.set, outer, .between⟩

def endRange (reading : ClassReading) (first last : Char) : ClassStep :=
  if first ≤ last then .more (reading.add (.range first last) .between) else .fault .reversedRange

/-- Takes an opening bracket, of a named class or of any other one. -/
def enter (reading : ClassReading) (rest : Text) : ClassStep :=
  match readNamedClass? rest with
  | some (set, count) => .skip count (reading.add set .between)
  | none => .more ⟨{}, reading.inner :: reading.outer, .opened⟩

/-- Takes a character where an item starts. -/
def start (reading : ClassReading) (c : Char) (rest : Text) : ClassStep :=
  match operator? c rest with
  | some operator => .skip 1 { reading with inner := reading.inner.operate operator, phase := .between }
  | none =>
    match c with
    | '[' => reading.enter rest
    | ']' => reading.close
    | c => .more { reading with phase := .item (.single c) }

def begin (reading : ClassReading) (c : Char) (rest : Text) : ClassStep :=
  match c with
  | '-' => .more (reading.add (.single '-') .hyphens)
  | ']' => if reading.outer.isEmpty then .more (reading.add (.single ']') .between) else .fault .nestedClass
  | c => reading.start c rest

/-- Takes a character that is not escaped, before the rest of the text. -/
def step (reading : ClassReading) (c : Char) (rest : Text) : ClassStep :=
  match reading.phase with
  | .opened =>
    if c = '^' then .more { reading with inner := { reading.inner with negated := true }, phase := .signed }
    else reading.begin c rest
  | .signed => reading.begin c rest
  | .hyphens => if c = '-' then .more (reading.add (.single '-') .hyphens) else reading.start c rest
  | .between => reading.start c rest
  | .item set =>
    if c = '-' ∧ rest.head? ≠ some ']' ∧ rest.head? ≠ some '-' then
      match set with
      | .single first => .more { reading with phase := .rangeFrom first }
      | _ => .fault .shorthandInRange
    else reading.settle.start c rest
  | .rangeFrom first => if c = '[' then .fault .nestedClass else reading.endRange first c

def stepEscaped (reading : ClassReading) (c : Char) : ClassStep :=
  match escaped? c, reading.phase with
  | none, _ => .fault .unknownEscape
  | some (.char last), .rangeFrom first => reading.endRange first last
  | some (.shorthand _), .rangeFrom _ => .fault .shorthandInRange
  | some escaped, _ => .more { reading.settle with phase := .item escaped.set }

end ClassReading
end FluentPattern.Regex
