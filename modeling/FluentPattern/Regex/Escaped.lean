import FluentPattern.CharSet

/-! What a character means after a backslash, in a class and outside of one. -/

namespace FluentPattern.Regex

/-- What a character means after a backslash. -/
inductive Escaped where
  | char (c : Char)
  | shorthand (name : Shorthand)
deriving DecidableEq

/-- The letters name a class or a control character; no other letter and no digit may be escaped. Every other
character stands for itself. -/
def escaped? (c : Char) : Option Escaped :=
  match c with
  | 'd' => some (.shorthand .digit)
  | 'w' => some (.shorthand .word)
  | 's' => some (.shorthand .space)
  | 't' => some (.char '\t')
  | 'n' => some (.char '\n')
  | 'r' => some (.char '\r')
  | c => if c.isAlphanum then none else some (.char c)

def Escaped.set : Escaped → CharSet
  | .char c => .single c
  | .shorthand name => .shorthand name

end FluentPattern.Regex
