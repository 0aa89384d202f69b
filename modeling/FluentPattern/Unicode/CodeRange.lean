/-! Sets of characters as ascending lists of code point ranges, the form in which character properties are
tabulated. -/

namespace FluentPattern.Unicode

/-- A range of code points, both ends included. -/
abbrev CodeRange := Nat × Nat

/-- Whether a code point lies in one of the ranges, which ascend: the first range that reaches it decides. -/
def inRanges : List CodeRange → Nat → Bool
  | [], _ => false
  | (first, last) :: ranges, code => if code ≤ last then first ≤ code else inRanges ranges code

end FluentPattern.Unicode
