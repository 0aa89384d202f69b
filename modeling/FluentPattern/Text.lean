/-! Text and places in it. Text is a list of characters; a place is a cursor, which knows what stands before it
and after it, so that a place never falls inside a character. Offsets, which count bytes of the UTF-8 form, are
computed from cursors and serve only to report places. -/

namespace FluentPattern

/-- Text is a list of Unicode scalar values. -/
abbrev Text := List Char

/-- The number of bytes in the UTF-8 form of a text. -/
def Text.utf8Size : Text → Nat
  | [] => 0
  | c :: rest => c.utf8Size + Text.utf8Size rest

/-- A place in a text: the characters before it, nearest first, and the characters after it. -/
structure Cursor where
  before : List Char
  rest : Text
deriving DecidableEq

namespace Cursor

/-- The place before the first character. -/
def start (text : Text) : Cursor := ⟨[], text⟩

/-- The whole text the place is in. -/
def text (cursor : Cursor) : Text := cursor.before.reverse ++ cursor.rest

/-- The number of bytes before the place. -/
def offset (cursor : Cursor) : Nat := Text.utf8Size cursor.before

/-- The place one character on; there is none at the end. -/
def next? (cursor : Cursor) : Option Cursor :=
  match cursor.rest with
  | [] => none
  | c :: rest => some ⟨c :: cursor.before, rest⟩

/-- The text between a place and a later place of the same text. -/
def upTo (first last : Cursor) : Text := first.rest.take (first.rest.length - last.rest.length)

/-- The place a number of bytes beyond the given one, if a character ends there. -/
def skip? (before : List Char) : Text → Nat → Option Cursor
  | rest, 0 => some ⟨before, rest⟩
  | [], _ => none
  | c :: rest, bytes => if c.utf8Size ≤ bytes then skip? (c :: before) rest (bytes - c.utf8Size) else none

/-- The place at an offset, if a character starts or the text ends there. -/
def atOffset? (text : Text) (offset : Nat) : Option Cursor := skip? [] text offset

theorem upTo_of_rest {first last : Cursor} {text : Text} (between : first.rest = text ++ last.rest) :
    first.upTo last = text := by
  simp [upTo, between]

end Cursor
end FluentPattern
