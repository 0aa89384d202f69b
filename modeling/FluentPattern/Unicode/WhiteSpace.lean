import FluentPattern.Unicode.CodeRange

/-! The characters of the property White_Space. The zero width space is not one of them. -/

namespace FluentPattern.Unicode

/-- The ranges of White_Space, in ascending order. -/
def whiteSpaceRanges : List CodeRange :=
  [(0x9, 0xD), (0x20, 0x20), (0x85, 0x85), (0xA0, 0xA0), (0x1680, 0x1680), (0x2000, 0x200A), (0x2028, 0x2029),
   (0x202F, 0x202F), (0x205F, 0x205F), (0x3000, 0x3000)]

def isWhiteSpace (c : Char) : Bool := inRanges whiteSpaceRanges c.toNat

end FluentPattern.Unicode
