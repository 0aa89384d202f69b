import FluentPattern.Regex

/-! What can be told about a regex without a text: how many characters it reads, whether it is plain, that is,
without conditions on the text ahead, and which of its groups are left when what is repeated zero times is dropped. -/

namespace FluentPattern.Regex

/-- The least number of characters that a regex reads. -/
def minSize : Regex → Nat
  | .empty | .atStart | .atEnd | .look .. => 0
  | .char _ => 1
  | .seq first second => first.minSize + second.minSize
  | .alt first second => min first.minSize second.minSize
  | .loop body bounds _ => body.minSize * bounds.least
  | .capture _ body | .commit body => body.minSize

/-- Whether a regex reads the same number of characters in every way. Of a repetition only the numbers count. -/
def hasFixedSize : Regex → Bool
  | .empty | .atStart | .atEnd | .look .. | .char _ => true
  | .seq first second => first.hasFixedSize && second.hasFixedSize
  | .alt first second => first.hasFixedSize && second.hasFixedSize && first.minSize == second.minSize
  | .loop body bounds _ => body.hasFixedSize && bounds.most == some bounds.least
  | .capture _ body | .commit body => body.hasFixedSize

/-- Whether a regex can read nothing at all. -/
def isVoid : Regex → Bool
  | .empty | .atStart | .atEnd | .look .. => true
  | .char _ => false
  | .seq first second | .alt first second => first.isVoid && second.isVoid
  | .loop body bounds _ => body.isVoid || bounds.most == some 0
  | .capture _ body | .commit body => body.isVoid

/-- Whether there are no conditions on the text ahead in a regex, and no repetitions that give no pass back. -/
def isPlain : Regex → Bool
  | .empty | .char _ | .atStart | .atEnd => true
  | .seq first second | .alt first second => first.isPlain && second.isPlain
  | .loop body _ _ | .capture _ body => body.isPlain
  | .look .. | .commit _ => false

/-- One more than the greatest number of a group that is not part of something repeated zero times; zero if there is no
such group. The first group has the number `group`. -/
def groupBound : Regex → (group : Nat) → Nat
  | .empty, _ | .char _, _ | .atStart, _ | .atEnd, _ => 0
  | .seq first second, group | .alt first second, group =>
    max (first.groupBound group) (second.groupBound (group + first.groupCount))
  | .loop body bounds _, group => if bounds.most = some 0 then 0 else body.groupBound group
  | .look _ body, group | .commit body, group => body.groupBound group
  | .capture _ body, group => max (group + 1) (body.groupBound (group + 1))

theorem groupBound_le (regex : Regex) (group : Nat) : regex.groupBound group ≤ group + regex.groupCount := by
  induction regex generalizing group with
  | empty | char | atStart | atEnd => simp [groupBound]
  | seq first second ihFirst ihSecond | alt first second ihFirst ihSecond =>
    have := ihFirst group
    have := ihSecond (group + first.groupCount)
    simp only [groupBound, groupCount]
    omega
  | loop body bounds _ ih =>
    simp only [groupBound, groupCount]
    split
    · omega
    · exact ih group
  | look _ body ih | commit body ih => exact ih group
  | capture _ body ih =>
    have := ih (group + 1)
    simp only [groupBound, groupCount]
    omega

end FluentPattern.Regex
