import FluentPattern.CharSet
import FluentPattern.Repetition

/-! What a pattern means to the engine: the tree that its text is read as. Groups that capture nothing leave no
trace in it. Capturing groups have no numbers of their own: they are counted from left to right by their opening
parentheses, so the number of a group follows from how many groups stand before it. -/

namespace FluentPattern

/-- What a pattern means. -/
inductive Regex where
  /-- Matches the empty text. -/
  | empty
  /-- Matches one character of a set. -/
  | char (set : CharSet)
  /-- Matches where a text, or a line, starts. -/
  | atStart
  /-- Matches where a text, or a line, ends. -/
  | atEnd
  | seq (first second : Regex)
  /-- Matches either; the first one is tried first. -/
  | alt (first second : Regex)
  | loop (body : Regex) (bounds : Bounds) (greed : Greed)
  /-- Matches the empty text where `body` matches, or does not match, the text ahead. -/
  | look (positive : Bool) (body : Regex)
  | capture (name : Option Text) (body : Regex)
  /-- Matches only the first way in which `body` does. -/
  | commit (body : Regex)
deriving DecidableEq

namespace Regex

instance : Inhabited Regex := ⟨.empty⟩

def groupCount : Regex → Nat
  | .empty | .char _ | .atStart | .atEnd => 0
  | .seq first second | .alt first second => first.groupCount + second.groupCount
  | .loop body _ _ | .look _ body | .commit body => body.groupCount
  | .capture _ body => body.groupCount + 1

/-- The names of the capturing groups in the order of their numbers, `none` for a group without name. -/
def groupNames : Regex → List (Option Text)
  | .empty | .char _ | .atStart | .atEnd => []
  | .seq first second | .alt first second => first.groupNames ++ second.groupNames
  | .loop body _ _ | .look _ body | .commit body => body.groupNames
  | .capture name body => name :: body.groupNames

theorem length_groupNames (regex : Regex) : regex.groupNames.length = regex.groupCount := by
  induction regex with
  | empty | char | atStart | atEnd => rfl
  | seq first second ihFirst ihSecond | alt first second ihFirst ihSecond =>
    simp [groupNames, groupCount, ihFirst, ihSecond]
  | loop body _ _ ih | look _ body ih | capture _ body ih | commit body ih => simp [groupNames, groupCount, ih]

/-- The names in a list, each of them only where it stands last. -/
def keepLast : List (Option Text) → List (Option Text)
  | [] => []
  | name :: later => (if name ∈ later then none else name) :: keepLast later

/-- The names of the groups by their numbers, from the whole match on, which has none. Of several groups of one name,
the last one has it. -/
def nameTable (regex : Regex) : List (Option Text) := none :: keepLast regex.groupNames

/-- Whether it is the empty regex itself. -/
def isEmpty : Regex → Bool
  | .empty => true
  | _ => false

/-- Whether it can be repeated: the empty regex and a condition on the text ahead can not, unless a capturing group
is around them or something is beside them. -/
def isRepeatable : Regex → Bool
  | .empty | .look .. => false
  | _ => true

/-- One after the other, from the front: a sequence of at least two pieces ends in the empty regex, so that a piece
that is a sequence itself can be told from the rest of the sequence around it. -/
def chain : List Regex → Regex
  | [] => .empty
  | regex :: rest => .seq regex (chain rest)

/-- One after the other; a single piece stands for itself. -/
def seqAll : List Regex → Regex
  | [regex] => regex
  | regexes => chain regexes

/-- The pieces of a sequence; anything else is a single piece. -/
def pieces : Regex → List Regex
  | .empty => []
  | .seq first rest => first :: rest.pieces
  | regex => [regex]

/-- Any of them, the earlier ones preferred. -/
def altAll : List Regex → Regex
  | [] => .empty
  | [regex] => regex
  | regex :: rest => .alt regex (altAll rest)

theorem pieces_chain (regexes : List Regex) : (chain regexes).pieces = regexes := by
  induction regexes with
  | nil => rfl
  | cons regex rest ih => simp [chain, pieces, ih]

end Regex
end FluentPattern
