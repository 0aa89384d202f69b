import FluentPattern.Unicode.CaseFolding
import FluentPattern.Unicode.DecimalDigit
import FluentPattern.Unicode.WhiteSpace
import FluentPattern.Unicode.WordCharacter

/-! Sets of characters, as patterns write them: a character, a class that is named by a letter, the dot, and classes
in brackets with the operators between their parts. -/

namespace FluentPattern

/-- The settings of a search that come from the flags. -/
structure Mode where
  ignoreCase : Bool
  multiLine : Bool
  dotAll : Bool
deriving DecidableEq

/-- The classes that are named by a letter. -/
inductive Shorthand where
  | digit
  | word
  | space
deriving DecidableEq

def Shorthand.contains : Shorthand → Char → Bool
  | .digit => Unicode.isDecimalDigit
  | .word => Unicode.isWordCharacter
  | .space => Unicode.isWhiteSpace

/-- The operators between two parts of a class. -/
inductive ClassOperator where
  | intersection
  | difference
  | symmetricDifference
deriving DecidableEq

/-- Whether a character is in the result, given whether it is in the left and in the right part. -/
def ClassOperator.decides : ClassOperator → Bool → Bool → Bool
  | .intersection, left, right => left && right
  | .difference, left, right => left && !right
  | .symmetricDifference, left, right => left != right

/-- What one character is compared with. -/
inductive CharSet where
  | nothing
  | single (c : Char)
  | range (first last : Char)
  | shorthand (name : Shorthand)
  /-- What the dot means: any character, except line breaks unless the mode says otherwise. -/
  | anyCharacter
  | union (first second : CharSet)
  | combined (operator : ClassOperator) (left right : CharSet)
  | brackets (negated : Bool) (inside : CharSet)
deriving DecidableEq

/-- Whether a character passes a test, or one of its case variants does where case is ignored. -/
def Mode.passes (mode : Mode) (test : Char → Bool) (c : Char) : Bool :=
  if mode.ignoreCase then (Unicode.caseVariants c).any test else test c

namespace CharSet

/-- Whether a character itself is in a set. Where case is ignored, the parts of an operator and the inside of
brackets hold the case variants of their characters, and only then is a class negated. -/
def holds (mode : Mode) : CharSet → Char → Bool
  | .nothing, _ => false
  | .single d, c => c == d
  | .range first last, c => first ≤ c && c ≤ last
  | .shorthand name, c => name.contains c
  | .anyCharacter, c => mode.dotAll || c != '\n'
  | .union first second, c => first.holds mode c || second.holds mode c
  | .combined operator left right, c =>
    operator.decides (mode.passes (left.holds mode) c) (mode.passes (right.holds mode) c)
  | .brackets negated inside, c => mode.passes (inside.holds mode) c != negated

def contains (mode : Mode) (set : CharSet) (c : Char) : Bool := mode.passes (set.holds mode) c

theorem contains_of_not_ignoreCase {mode : Mode} (caseful : mode.ignoreCase = false) (set : CharSet) (c : Char) :
    set.contains mode c = set.holds mode c := by
  simp [contains, Mode.passes, caseful]

end CharSet
end FluentPattern
