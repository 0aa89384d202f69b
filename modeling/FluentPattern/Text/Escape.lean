import FluentPattern.Text

/-! Escaping: what has to be written so that a text stands for itself, in a pattern or in a character class.
Both kinds of escaping first collapse every run of backslashes to one backslash, so that text which was escaped
once by hand is not escaped twice. -/

namespace FluentPattern.Text

/-- Every run of backslashes becomes one backslash; all other characters stay. -/
def collapseBackslashes : Text → Text
  | [] => []
  | c :: rest =>
    if c = '\\' ∧ rest.head? = some '\\' then collapseBackslashes rest else c :: collapseBackslashes rest

/-- Writes a backslash before each of the special characters. -/
def escapeEach (special : List Char) (text : Text) : Text :=
  text.flatMap fun c => if c ∈ special then ['\\', c] else [c]

/-- The characters that are escaped in a pattern. -/
def patternSpecials : List Char :=
  ['.', '[', ']', '|', '*', '?', '+', '(', ')', '{', '}', '^', '$', '\\', ':', '=']

/-- The characters that are escaped in a character class. -/
def classSpecials : List Char := [']', '-', '\\', '[', '&', '~', '^']

/-- The form of a text in which it stands for itself in a pattern. -/
def escapeForPattern (text : Text) : Text := escapeEach patternSpecials (collapseBackslashes text)

/-- The form of a text in which its characters stand for themselves in a character class. -/
def escapeForClass (text : Text) : Text := escapeEach classSpecials (collapseBackslashes text)

@[simp] theorem escapeEach_nil (special : List Char) : escapeEach special [] = [] := rfl

theorem escapeEach_cons (special : List Char) (c : Char) (text : Text) :
    escapeEach special (c :: text) = (if c ∈ special then ['\\', c] else [c]) ++ escapeEach special text := rfl

theorem escapeEach_append (special : List Char) (first second : Text) :
    escapeEach special (first ++ second) = escapeEach special first ++ escapeEach special second := by
  simp [escapeEach]

end FluentPattern.Text
