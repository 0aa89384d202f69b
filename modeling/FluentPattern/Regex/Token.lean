import FluentPattern.Regex
import FluentPattern.Regex.ClassReading
import FluentPattern.Unicode.Alphanumeric

/-! Cutting the text of a pattern into tokens. The text is read from left to right, one character at a time, in
a state that says what the character belongs to; whether a brace starts a repetition is the one decision that
needs a longer look ahead. A text that no pattern may hold ends in a token that says what is wrong with it. -/

namespace FluentPattern.Regex

/-- The kinds of groups. -/
inductive Opening where
  | plain
  | capture (name : Option Text)
  | look (positive : Bool)
deriving DecidableEq

/-- A piece of the text of a pattern. -/
inductive Token where
  /-- A regex that is written without groups: a character, a set of characters, an anchor. -/
  | item (regex : Regex)
  | opening (kind : Opening)
  | closing
  | bar
  | times (bounds : Bounds) (greed : Greed)
  /-- The plus after a repetition, which gives no pass back. -/
  | possessive
  | fault (fault : Fault)
deriving DecidableEq

/-- What repetitions there are in a language of patterns. -/
structure Dialect where
  /-- The greatest bound, if there is one. It means no limit, and a greater number is no bound at all. -/
  greatest : Option Nat
  /-- Whether any group can be repeated, also one that can only match the empty text. -/
  repeatsAll : Bool
deriving DecidableEq

namespace Dialect

/-- The bare grammar: numbers are of any size, and every group can be repeated. -/
def grammar : Dialect := ⟨none, true⟩

/-- The language of the engine: bounds have 64 bits. -/
def engine : Dialect := ⟨some (UInt64.size - 1), false⟩

/-- Whether a number can be a bound. -/
def allows (dialect : Dialect) (n : Nat) : Bool := dialect.greatest.all (n ≤ ·)

end Dialect

def number (digits : Text) : Nat := digits.foldl (fun n c => 10 * n + (c.toNat - '0'.toNat)) 0

def bound? (dialect : Dialect) (digits : Text) : Option Nat :=
  if dialect.allows (number digits) then some (number digits) else none

/-- The greatest number of passes that a bound means. -/
def limit? (dialect : Dialect) (bound : Nat) : Option Nat :=
  if dialect.greatest = some bound then none else some bound

/-- The bounds that are written after an opening brace, up to the closing one. A missing least number is zero, a
missing greatest one is no limit; without a comma the one number is both. -/
def bounds? (dialect : Dialect) (text : Text) : Option Bounds :=
  let low := text.takeWhile Char.isDigit
  match bound? dialect low, text.dropWhile Char.isDigit with
  | some least, '}' :: _ => if low.isEmpty then none else some ⟨least, limit? dialect least⟩
  | some least, ',' :: rest =>
    let high := rest.takeWhile Char.isDigit
    match bound? dialect high, rest.dropWhile Char.isDigit with
    | some most, '}' :: _ => some ⟨least, if high.isEmpty then none else limit? dialect most⟩
    | _, _ => none
  | _, _ => none

/-- What stands right before a place outside of classes and group openings. -/
inductive Before where
  /-- Nothing that can be repeated. -/
  | nothing
  | item
  | repetition
deriving DecidableEq

/-- What the next character belongs to. -/
inductive Scan where
  | outside (before : Before)
  /-- The character after a backslash. -/
  | escape
  /-- The question mark after an opening parenthesis. -/
  | groupMark
  /-- The sign that tells the kind of a group. -/
  | groupKind
  /-- A group name, of which `read` has been read, latest first. -/
  | name (read : List Char)
  /-- The rest of the braces that write the bounds. -/
  | braces (bounds : Bounds)
  /-- The question mark that makes a repetition lazy. -/
  | lazyMark (bounds : Bounds)
  | insideClass (reading : ClassReading)
  /-- The character after a backslash in a class. -/
  | classEscape (reading : ClassReading)
  /-- The rest of what writes an operator or a named class in a class. -/
  | classRest (count : Nat) (reading : ClassReading)
deriving DecidableEq

/-- The bounds that a single sign means. -/
def signBounds? : Char → Option Bounds
  | '?' => some Repetition.optional.bounds
  | '+' => some Repetition.oneOrMore.bounds
  | '*' => some (Repetition.zeroOrMore .greedy).bounds
  | _ => none

def isNameCharacter (c : Char) : Bool := Unicode.isAlphanumeric c || c == '_'

/-- The tokens of a text that is read in a state. -/
def tokens (dialect : Dialect) : Scan → Text → List Token
  | .outside _, [] => []
  | .outside before, c :: rest =>
    match signBounds? c with
    | some bounds =>
      match before with
      | .item =>
        if rest.head? = some '?' then tokens dialect (.lazyMark bounds) rest
        else .times bounds .greedy :: tokens dialect (.outside .repetition) rest
      | .repetition =>
        if c = '+' then .possessive :: tokens dialect (.outside .nothing) rest else [.fault .nothingToRepeat]
      | .nothing => [.fault .nothingToRepeat]
    | none =>
      match c with
      | '\\' => tokens dialect .escape rest
      | '(' =>
        if rest.head? = some '?' then tokens dialect .groupMark rest
        else .opening (.capture none) :: tokens dialect (.outside .nothing) rest
      | ')' => .closing :: tokens dialect (.outside .item) rest
      | '|' => .bar :: tokens dialect (.outside .nothing) rest
      | '[' => tokens dialect (.insideClass {}) rest
      | '.' => .item (.char .anyCharacter) :: tokens dialect (.outside .item) rest
      | '^' => .item .atStart :: tokens dialect (.outside .item) rest
      | '$' => .item .atEnd :: tokens dialect (.outside .item) rest
      | c =>
        match if c = '{' ∧ before = .item then bounds? dialect rest else none with
        | some bounds => tokens dialect (.braces bounds) rest
        | none => .item (.char (.single c)) :: tokens dialect (.outside .item) rest
  | .escape, [] => [.fault .trailingBackslash]
  | .escape, c :: rest =>
    match escaped? c with
    | some escaped => .item (.char escaped.set) :: tokens dialect (.outside .item) rest
    | none => [.fault .unknownEscape]
  | .groupMark, [] => [.fault .unknownGroup]
  | .groupMark, _ :: rest => tokens dialect .groupKind rest
  | .groupKind, [] => [.fault .unknownGroup]
  | .groupKind, c :: rest =>
    match c with
    | ':' => .opening .plain :: tokens dialect (.outside .nothing) rest
    | '=' => .opening (.look true) :: tokens dialect (.outside .nothing) rest
    | '!' => .opening (.look false) :: tokens dialect (.outside .nothing) rest
    | '<' => tokens dialect (.name []) rest
    | _ => [.fault .unknownGroup]
  | .name _, [] => [.fault .groupName]
  | .name read, c :: rest =>
    if c = '>' ∧ read ≠ [] then .opening (.capture (some read.reverse)) :: tokens dialect (.outside .nothing) rest
    else if isNameCharacter c then tokens dialect (.name (c :: read)) rest
    else [.fault .groupName]
  | .braces _, [] => [.fault .nothingToRepeat]
  | .braces bounds, c :: rest =>
    if c ≠ '}' then tokens dialect (.braces bounds) rest
    else if rest.head? = some '?' then tokens dialect (.lazyMark bounds) rest
    else .times bounds .greedy :: tokens dialect (.outside .repetition) rest
  | .lazyMark bounds, [] => [.times bounds .greedy]
  | .lazyMark bounds, _ :: rest => .times bounds .lazy :: tokens dialect (.outside .repetition) rest
  | .insideClass _, [] => [.fault .unclosedClass]
  | .insideClass reading, c :: rest =>
    if c = '\\' then tokens dialect (.classEscape reading) rest
    else
      match reading.step c rest with
      | .more reading => tokens dialect (.insideClass reading) rest
      | .skip count reading => tokens dialect (.classRest count reading) rest
      | .closed set => .item (.char set) :: tokens dialect (.outside .item) rest
      | .fault fault => [.fault fault]
  | .classEscape _, [] => [.fault .trailingBackslash]
  | .classEscape reading, c :: rest =>
    match reading.stepEscaped c with
    | .more reading => tokens dialect (.insideClass reading) rest
    | .skip count reading => tokens dialect (.classRest count reading) rest
    | .closed set => .item (.char set) :: tokens dialect (.outside .item) rest
    | .fault fault => [.fault fault]
  | .classRest _ _, [] => [.fault .unclosedClass]
  | .classRest count reading, _ :: rest =>
    tokens dialect (if count ≤ 1 then .insideClass reading else .classRest (count - 1) reading) rest

end FluentPattern.Regex
