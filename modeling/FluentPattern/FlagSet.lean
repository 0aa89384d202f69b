import FluentPattern.Text

/-! Sets of flag letters. A set keeps its letters in ascending order without repetition, so that two sets are
equal exactly if they have the same letters, and the text of a set does not depend on how it was built. -/

namespace FluentPattern

/-- A set of flag letters, in ascending order of code point. -/
structure FlagSet where
  letters : Text
  ascending : letters.Pairwise (· < ·)
deriving DecidableEq

namespace FlagSet

/-- Puts a letter at its place among ascending letters, unless it is there. -/
def insertLetter (letter : Char) : Text → Text
  | [] => [letter]
  | other :: rest =>
    if letter < other then letter :: other :: rest
    else if letter = other then other :: rest
    else other :: insertLetter letter rest

theorem mem_insertLetter {letter c : Char} {letters : Text} :
    c ∈ insertLetter letter letters ↔ c = letter ∨ c ∈ letters := by
  induction letters with
  | nil => simp [insertLetter]
  | cons other rest ih =>
    unfold insertLetter
    split
    · simp
    · split
      next same => subst same; simp
      next => simp only [List.mem_cons, ih]; grind

theorem insertLetter_ascending (letter : Char) {letters : Text} (sorted : letters.Pairwise (· < ·)) :
    (insertLetter letter letters).Pairwise (· < ·) := by
  induction letters with
  | nil => simp [insertLetter]
  | cons other rest ih =>
    obtain ⟨below, sortedRest⟩ := List.pairwise_cons.mp sorted
    unfold insertLetter
    split
    next less =>
      refine List.pairwise_cons.mpr ⟨?_, sorted⟩
      intro c member
      rcases List.mem_cons.mp member with same | later
      · exact same ▸ less
      · exact Char.lt_trans less (below c later)
    next notLess =>
      split
      · exact sorted
      next different =>
        refine List.pairwise_cons.mpr ⟨?_, ih sortedRest⟩
        intro c member
        rcases mem_insertLetter.mp member with same | later
        · subst same
          exact Char.not_le.mp fun le =>
            (Char.not_lt.mp notLess |> Char.le_antisymm le |> different)
        · exact below c later

def empty : FlagSet := ⟨[], List.Pairwise.nil⟩

def insert (flags : FlagSet) (letter : Char) : FlagSet :=
  ⟨insertLetter letter flags.letters, insertLetter_ascending letter flags.ascending⟩

/-- Adds every character of a text. -/
def union (flags : FlagSet) (added : Text) : FlagSet := added.foldl insert flags

/-- Drops every character of a text. -/
def difference (flags : FlagSet) (dropped : Text) : FlagSet :=
  ⟨flags.letters.filter (· ∉ dropped), flags.ascending.filter _⟩

/-- The set of the characters of a text, which may repeat and come in any order. -/
def ofText (letters : Text) : FlagSet := empty.union letters

def contains (flags : FlagSet) (letter : Char) : Bool := letter ∈ flags.letters

def isEmpty (flags : FlagSet) : Bool := flags.letters.isEmpty

/-- Puts a letter in or takes it out. -/
def set (flags : FlagSet) (letter : Char) (present : Bool) : FlagSet :=
  if present then flags.union [letter] else flags.difference [letter]

/-- The flags of a pattern that names none: all matches, and anchors at every line. -/
def standard : FlagSet := ofText ['g', 'm']

theorem contains_insert (flags : FlagSet) (letter c : Char) :
    (flags.insert letter).contains c = (decide (c = letter) || flags.contains c) := by
  simp [contains, insert, mem_insertLetter]

theorem contains_union (flags : FlagSet) (added : Text) (c : Char) :
    (flags.union added).contains c = (flags.contains c || decide (c ∈ added)) := by
  induction added generalizing flags with
  | nil => simp [union]
  | cons letter rest ih =>
    have step : flags.union (letter :: rest) = (flags.insert letter).union rest := rfl
    rw [step, ih, contains_insert]
    by_cases same : c = letter <;> simp [same]

theorem contains_difference (flags : FlagSet) (dropped : Text) (c : Char) :
    (flags.difference dropped).contains c = (flags.contains c && decide (c ∉ dropped)) := by
  simp [contains, difference]

end FlagSet
end FluentPattern
