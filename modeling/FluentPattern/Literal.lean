import FluentPattern.Text

/-! Pattern literals: a pattern between slashes, then its flags. A slash ends the pattern unless a backslash
stands before it or it is inside a character class. A reader goes on from any place of a text, also after a
fault, and every outcome comes with the place where reading stopped. -/

namespace FluentPattern

/-- The two parts of a literal, as they are written. -/
structure Literal where
  source : Text
  flags : Text
deriving DecidableEq

namespace Literal

inductive Fault where
  | noOpening
  | noClosing
  | trailingBackslash
  | lineBreak
  | flagNotLetter
  | repeatedFlag
deriving DecidableEq

def Fault.reason : Fault → String
  | .noOpening => "expected an opening `/`"
  | .noClosing => "missing closing `/`"
  | .trailingBackslash => "trailing backslash"
  | .lineBreak => "line break inside literal"
  | .flagNotLetter => "flags must be letters"
  | .repeatedFlag => "repeated flag"

/-- Goes to the slash that ends the pattern, or to the end of the text. A backslash takes the next character with
it, whatever that is. A line break is left unread. -/
def scanSource (inClass : Bool) (before : List Char) : Text → Option Fault × Cursor
  | [] => (none, ⟨before, []⟩)
  | ['\\'] => (some .trailingBackslash, ⟨'\\' :: before, []⟩)
  | '\\' :: c :: rest => scanSource inClass (c :: '\\' :: before) rest
  | c :: rest =>
    if c = '/' ∧ inClass = false then (none, ⟨before, c :: rest⟩)
    else if c = '\n' ∨ c = '\r' then (some .lineBreak, ⟨before, c :: rest⟩)
    else scanSource (c == '[' || (inClass && c != ']')) (c :: before) rest

/-- Goes to the end of the flags, which is the end of the text. Flags are ASCII letters, each at most once; one that
is not is read before it is refused. -/
def scanFlags (seen : List Char) (before : List Char) : Text → Option Fault × Cursor
  | [] => (none, ⟨before, []⟩)
  | c :: rest =>
    if !c.isAlpha then (some .flagNotLetter, ⟨c :: before, rest⟩)
    else if c ∈ seen then (some .repeatedFlag, ⟨c :: before, rest⟩)
    else scanFlags (c :: seen) (c :: before) rest

/-- The place after the character at hand, if it is a slash. -/
def skipSlash? (cursor : Cursor) : Option Cursor :=
  match cursor.rest with
  | '/' :: rest => some ⟨'/' :: cursor.before, rest⟩
  | _ => none

/-- Reads a literal that starts at a place, and says where reading stopped. -/
def readAt (cursor : Cursor) : Except Fault Literal × Cursor :=
  match skipSlash? cursor with
  | none => (.error .noOpening, cursor)
  | some opened =>
    match scanSource false opened.before opened.rest with
    | (some fault, stop) => (.error fault, stop)
    | (none, closing) =>
      match skipSlash? closing with
      | none => (.error .noClosing, closing)
      | some closed =>
        match scanFlags [] closed.before closed.rest with
        | (some fault, stop) => (.error fault, stop)
        | (none, stop) => (.ok ⟨opened.upTo closing, closed.upTo stop⟩, stop)

end Literal
end FluentPattern
