import FluentPattern.Regex.Plan

/-! Searching a text for a regex: the first place where it matches, and all matches one after the other. -/

namespace FluentPattern.Regex

/-- A match and what its groups captured. -/
structure Found where
  whole : Match
  groups : Groups
deriving DecidableEq

namespace Plan

/-- The preferred match that starts at a place. The whole match is what the group of number zero captured. -/
def matchAt? (plan : Plan) (mode : Mode) (cursor : Cursor) : Option Found :=
  match plan.ways mode 0 [.start cursor] with
  | [] => none
  | state :: _ => (state.groups.lookup 0).map fun whole => ⟨whole, state.groups⟩

/-- The match at the first place where there is one, from the given place on. -/
def searchFrom? (plan : Plan) (mode : Mode) (before : List Char) : Text → Option Found
  | [] => plan.matchAt? mode ⟨before, []⟩
  | c :: rest => (plan.matchAt? mode ⟨before, c :: rest⟩).orElse fun _ => plan.searchFrom? mode (c :: before) rest

/-- The first match from a place on. -/
def search? (plan : Plan) (mode : Mode) (cursor : Cursor) : Option Found :=
  plan.searchFrom? mode cursor.before cursor.rest

/-- The matches from a place on, at most `limit` of them. Each search starts where the last match ended, or one
character further if that match was empty. `touching` says that a match ended right here: an empty match here
is then passed over. -/
def matchesFrom (plan : Plan) (mode : Mode) : (limit : Nat) → Cursor → (touching : Bool) → List Match
  | 0, _, _ => []
  | limit + 1, cursor, touching =>
    match plan.search? mode cursor with
    | none => []
    | some ⟨found, _⟩ =>
      if found.isEmpty then
        let later :=
          match found.stop.next? with
          | some after => plan.matchesFrom mode limit after false
          | none => []
        if touching ∧ found.stop = cursor then later else found :: later
      else found :: plan.matchesFrom mode limit found.stop true

end Plan

/-- The first match from a place on. -/
def search? (regex : Regex) (mode : Mode) (cursor : Cursor) : Option Found := regex.plan.search? mode cursor

/-- All matches in a text; every one but the last leaves a character less to search. -/
def allMatches (regex : Regex) (mode : Mode) (text : Text) : List Match :=
  regex.plan.matchesFrom mode (text.length + 1) (.start text) false

end FluentPattern.Regex
