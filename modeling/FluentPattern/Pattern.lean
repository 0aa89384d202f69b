import FluentPattern.Error
import FluentPattern.FlagSet
import FluentPattern.Regex.Limits
import FluentPattern.Regex.Reader
import FluentPattern.Regex.Search
import FluentPattern.Text.Group

/-! Compiled patterns: a pattern text that the engine can read, with flags that the engine knows. The flag `g`
asks for all matches instead of the first one, `i`, `m` and `s` set the mode of the search, and `u` asks for
what is always done. -/

namespace FluentPattern

def flagError? (flag : Char) : Option Error :=
  if flag ∈ ['g', 'i', 'm', 's', 'u'] then none
  else if flag ∈ ['d', 'v', 'y'] then some (.unsupportedFlag flag)
  else some (.invalidFlag flag)

/-- The error of the first flag that has one. -/
def FlagSet.error? (flags : FlagSet) : Option Error := flags.letters.findSome? flagError?

def FlagSet.mode (flags : FlagSet) : Mode := ⟨flags.contains 'i', flags.contains 'm', flags.contains 's'⟩

/-- A pattern that can be searched for. Its text is not empty, its flags are known, its regex is what the text is read
as, and it is not too large. -/
structure Pattern where
  source : Text
  flags : FlagSet
  regex : Regex
  source_ne_nil : source ≠ []
  flags_known : flags.error? = none
  read_source : Regex.read .engine source = .ok regex
  within_limits : Regex.limitFault? flags.mode source regex = none

/-- What the groups of a match captured, by number from the whole match on, and the names of the groups. -/
structure Captures where
  groups : List (Option Match)
  names : List (Option Text)
deriving DecidableEq

namespace Captures

/-- The number of groups, the whole match included. -/
def size (captures : Captures) : Nat := captures.groups.length

def isEmpty (captures : Captures) : Bool := captures.groups.isEmpty

/-- What a group captured; nothing if it took no part in the match or does not exist. -/
def get? (captures : Captures) (number : Nat) : Option Match := (captures.groups[number]?).join

/-- What the group captured that has a name. -/
def named? (captures : Captures) (name : Text) : Option Match :=
  (captures.names.idxOf? (some name)).bind captures.get?

end Captures

namespace Pattern

/-- Compiles a text with flags in any order. The flags are checked before the text; an empty text is written as a
group without content. -/
def compile (source flags : Text) : Except Error Pattern :=
  let flags := FlagSet.ofText flags
  match known : flags.error? with
  | some error => .error error
  | none =>
    if empty : source = [] then
      .ok ⟨emptyGroup, flags, .empty, by decide, known, rfl, rfl⟩
    else
      match readable : Regex.read .engine source with
      | .error fault => .error (.malformed fault)
      | .ok regex =>
        match fits : Regex.limitFault? flags.mode source regex with
        | some fault => .error (.malformed fault)
        | none => .ok ⟨source, flags, regex, empty, known, readable, fits⟩

def parse (literal : Text) : Except Error Pattern :=
  match Literal.parse literal with
  | .ok literal => compile literal.source literal.flags
  | .error error => .error error

/-- The same text with the same flags. -/
instance : DecidableEq Pattern := fun first second =>
  if same : first.source = second.source ∧ first.flags = second.flags then
    isTrue (by
      obtain ⟨source, flags, regex, _, _, read_source, _⟩ := first
      obtain ⟨_, _, other, _, _, read_other, _⟩ := second
      obtain ⟨rfl, rfl⟩ := same
      obtain rfl : regex = other := Except.ok.inj (read_source.symm.trans read_other)
      rfl)
  else isFalse fun equal => same (equal ▸ ⟨rfl, rfl⟩)

def literal (pattern : Pattern) : Text := ['/'] ++ pattern.source ++ ['/'] ++ pattern.flags.letters

/-- Whether all matches are asked for. -/
def isGlobal (pattern : Pattern) : Bool := pattern.flags.contains 'g'

def mode (pattern : Pattern) : Mode := pattern.flags.mode

/-- The first match, with what its groups captured. -/
def search? (pattern : Pattern) (haystack : Text) : Option Regex.Found :=
  pattern.regex.search? pattern.mode (.start haystack)

def isMatch (pattern : Pattern) (haystack : Text) : Bool := (pattern.search? haystack).isSome

/-- The first match. -/
def find? (pattern : Pattern) (haystack : Text) : Option Match := (pattern.search? haystack).map (·.whole)

/-- All matches of a global pattern, at most the first one of another. -/
def findAll (pattern : Pattern) (haystack : Text) : List Match :=
  if pattern.isGlobal then pattern.regex.allMatches pattern.mode haystack else (pattern.find? haystack).toList

/-- What the groups of the first match captured. -/
def captures? (pattern : Pattern) (haystack : Text) : Option Captures :=
  (pattern.search? haystack).map fun found =>
    { groups := (List.range pattern.regex.reportedGroups).map (List.lookup · found.groups)
      names := pattern.regex.nameTable }

/-- Puts a text in the place of each match, from a place on. -/
def replaceFrom (replacement : Text) (cursor : Cursor) : List Match → Text
  | [] => cursor.rest
  | found :: later => cursor.upTo found.start ++ replacement ++ replaceFrom replacement found.stop later

/-- Puts a text, taken as it is, in the place of all matches of a global pattern, of the first one of another. -/
def replace (pattern : Pattern) (haystack replacement : Text) : Text :=
  replaceFrom replacement (.start haystack) (pattern.findAll haystack)

end Pattern
end FluentPattern
