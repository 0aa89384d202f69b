import FluentPattern.Text

/-! How far a match has come. A state is a place in the text together with what the groups have captured on the
way. Two ways that reach the same place match the same texts from there on, so of several states at one place only
the first one, the preferred one, is kept. -/

namespace FluentPattern

/-- A stretch of a text. -/
structure Match where
  start : Cursor
  stop : Cursor
deriving DecidableEq

namespace Match

def text (m : Match) : Text := m.start.upTo m.stop

def isEmpty (m : Match) : Bool := m.text.isEmpty

end Match

namespace Regex

/-- What the groups captured, by number; of several captures of a group the latest comes first. -/
abbrev Groups := List (Nat × Match)

/-- Where a choice stands in a regex: the way to it from the outside, its last step first. -/
abbrev Address := List Nat

/-- The address of a part of a regex, where the choices on the way through it are noted. -/
abbrev Trail := Option Address

/-- The trail of a part of what has a trail. -/
def Trail.inside (trail : Trail) (step : Nat) : Trail := trail.map (step :: ·)

/-- How far a match has come: the place it has reached, with the number of characters left there, what the groups
have captured, and the choices made since the last character, as far as they are noted. -/
structure State where
  cursor : Cursor
  left : Nat
  groups : Groups
  choices : List Address
  left_eq : left = cursor.rest.length
deriving DecidableEq

namespace State

def start (cursor : Cursor) : State := ⟨cursor, cursor.rest.length, [], [], rfl⟩

/-- Reads one character, if there is one that passes the test. -/
def read? (state : State) (test : Char → Bool) : Option State :=
  match state with
  | ⟨⟨_, []⟩, _, _, _, _⟩ => none
  | ⟨⟨before, c :: rest⟩, left, groups, _, left_eq⟩ =>
    if test c then some ⟨⟨c :: before, rest⟩, left - 1, groups, [], by simp [left_eq]⟩ else none

/-- Notes a choice. No way through a regex makes the same choice twice at one place, for it would go in circles. -/
def choose? (state : State) : Trail → Option State
  | none => some state
  | some address =>
    if address ∈ state.choices then none else some { state with choices := address :: state.choices }

/-- Whether a choice has been made, and noted, since the last character. -/
def hasChosen (state : State) (trail : Trail) : Bool :=
  match trail with
  | none => false
  | some address => address ∈ state.choices

/-- Forgets the choices. -/
def anew (state : State) : State := { state with choices := [] }

/-- Notes that a group captured the text since a place. -/
def record (state : State) (group : Nat) (start : Cursor) : State :=
  { state with groups := (group, ⟨start, state.cursor⟩) :: state.groups }

/-- Goes back to the place of an earlier state, and keeps what the groups have captured since. -/
def backTo (state earlier : State) : State :=
  { earlier with groups := state.groups }

/-- A state to match some groups from, which have captured nothing. -/
def withoutGroups (state : State) : State := { state with groups := [], choices := [] }

/-- Goes to the place of a later state, in which the groups from `first` on, `count` of them, have been matched anew. -/
def goTo (state later : State) (first count : Nat) : State :=
  let kept := state.groups.filter fun (group, _) => group < first || first + count ≤ group
  { later with groups := later.groups ++ kept, choices := [] }

/-- Whether a text, or with `multiLine` a line, starts here. -/
def isStart (state : State) (multiLine : Bool) : Bool :=
  match state.cursor.before with
  | [] => true
  | c :: _ => multiLine && c == '\n'

/-- Whether a text, or with `multiLine` a line, ends here. -/
def isEnd (state : State) (multiLine : Bool) : Bool :=
  match state.cursor.rest with
  | [] => true
  | c :: _ => multiLine && c == '\n'

end State

/-- A set of numbers, one bit for each. -/
structure Marks where
  bits : Nat := 0
deriving DecidableEq

namespace Marks

def has (marks : Marks) (n : Nat) : Bool := marks.bits.testBit n

def add (marks : Marks) (n : Nat) : Marks := ⟨marks.bits ||| 1 <<< n⟩

@[simp] theorem has_empty (n : Nat) : ({} : Marks).has n = false := Nat.zero_testBit n

@[simp] theorem has_add (marks : Marks) (n m : Nat) : (marks.add n).has m = (m == n || marks.has m) := by
  simp only [has, add, Nat.testBit_or, Nat.one_shiftLeft, Nat.testBit_two_pow]
  rw [Bool.or_comm, Bool.beq_comm]
  congr 1

end Marks

/-- The states at places that are not marked, the first one at each place. -/
def freshFrom (marks : Marks) : List State → List State
  | [] => []
  | state :: rest =>
    if marks.has state.left then freshFrom marks rest else state :: freshFrom (marks.add state.left) rest

/-- The first one of the states at each place. -/
def fresh : List State → List State
  | [] => []
  | [state] => [state]
  | states => freshFrom {} states

theorem mem_of_mem_freshFrom {marks : Marks} {states : List State} {state : State}
    (member : state ∈ freshFrom marks states) : state ∈ states := by
  induction states generalizing marks with
  | nil => simp [freshFrom] at member
  | cons head rest ih =>
    simp only [freshFrom] at member
    split at member
    · exact List.mem_cons_of_mem head (ih member)
    · rcases List.mem_cons.mp member with rfl | member
      · exact List.mem_cons_self
      · exact List.mem_cons_of_mem head (ih member)

theorem mem_of_mem_fresh {states : List State} {state : State} (member : state ∈ fresh states) : state ∈ states := by
  unfold fresh at member
  split at member
  · exact member
  · exact member
  · exact mem_of_mem_freshFrom member

end Regex
end FluentPattern
