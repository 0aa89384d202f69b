import FluentPattern.Literal
import FluentPattern.Regex.Fault

/-! Everything that can go wrong when a pattern is built, read or compiled, and how it is reported. -/

namespace FluentPattern

inductive Error where
  /-- A flat list of ranges lacks the end of its last range. -/
  | oddRangeList (length : Nat)
  | invalidLiteral (literal : Text) (fault : Literal.Fault)
  | invalidFlag (flag : Char)
  /-- A flag of the literal notation that asks for what the engine does not do. -/
  | unsupportedFlag (flag : Char)
  /-- The text of a pattern is not of the engine's language. -/
  | malformed (fault : Regex.Fault)
deriving DecidableEq

namespace Error

/-- The report of an error. What the engine refuses is reported without words. -/
def message? : Error → Option String
  | .oddRangeList length => some ("range list must hold an even number of characters, got " ++ toString length)
  | .invalidLiteral literal fault =>
    some ("invalid pattern literal `" ++ String.ofList literal ++ "`: " ++ fault.reason)
  | .invalidFlag flag => some ("invalid flag `" ++ String.singleton flag ++ "`")
  | .unsupportedFlag flag =>
    some ("flag `" ++ String.singleton flag ++ "` is not supported by the matching engine")
  | .malformed _ => none

end Error

/-- Reads a literal from a place on; a fault is reported with the whole text. -/
def Literal.readFrom (cursor : Cursor) : Except Error Literal × Cursor :=
  match Literal.readAt cursor with
  | (.ok literal, stop) => (.ok literal, stop)
  | (.error fault, stop) => (.error (.invalidLiteral cursor.text fault), stop)

/-- Reads a text that is a literal. -/
def Literal.parse (text : Text) : Except Error Literal := (Literal.readFrom (.start text)).1

end FluentPattern
