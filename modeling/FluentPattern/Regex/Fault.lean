/-! What can be wrong with the text of a pattern. -/

namespace FluentPattern.Regex

/-- The reasons why a text is no pattern. -/
inductive Fault where
  | unclosedGroup
  | unopenedGroup
  | unknownGroup
  | groupName
  | unclosedClass
  | nestedClass
  | reversedRange
  | shorthandInRange
  | nothingToRepeat
  | trailingBackslash
  | unknownEscape
  | reversedBounds
  | tooDeep
  | tooLarge
deriving DecidableEq

end FluentPattern.Regex
