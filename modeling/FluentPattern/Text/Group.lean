import FluentPattern.Text

/-! Pattern text in a group that captures nothing. -/

namespace FluentPattern

/-- A text in a group, so that it is one item for what stands around it. -/
def grouped (text : Text) : Text := ['(', '?', ':'] ++ text ++ [')']

/-- The text of the pattern that has no text of its own. -/
def emptyGroup : Text := grouped []

end FluentPattern
