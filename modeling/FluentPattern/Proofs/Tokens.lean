import FluentPattern.Node.Render
import FluentPattern.Regex.Token

/-! Cutting pieces of pattern text into tokens, whatever stands around them. Two neighbouring pieces never melt into
one token as long as the second one does not begin like a repetition. That is the one condition on the text after a
piece, and every piece fulfils it for the piece before it, so pieces can be put together freely. -/

namespace FluentPattern.Proofs.Tokens
open Regex

variable {dialect : Dialect}

/-- Text that does not begin like a repetition. -/
def Settled (text : Text) : Prop := ∀ c ∈ text.head?, c ∉ ['?', '*', '+', '{']

theorem settled_nil : Settled [] := by simp [Settled]

theorem settled_cons {c : Char} {rest : Text} (harmless : c ∉ ['?', '*', '+', '{']) : Settled (c :: rest) := by
  simpa [Settled] using harmless

theorem Settled.append {first second : Text} (one : Settled first) (other : Settled second) :
    Settled (first ++ second) := by
  cases first with
  | nil => exact other
  | cons c first => simpa [Settled] using one

theorem Settled.append_of_ne_nil {first : Text} (settled : Settled first) (nonempty : first ≠ []) (second : Text) :
    Settled (first ++ second) := by
  obtain ⟨c, first, rfl⟩ := List.exists_cons_of_ne_nil nonempty
  simpa [Settled] using settled

theorem Settled.head?_ne {text : Text} (settled : Settled text) : text.head? ≠ some '?' :=
  fun same => settled '?' (by simp [same]) (by simp)

/-- What stands before settled text makes no difference to it. -/
theorem tokens_settled {text : Text} (settled : Settled text) (before other : Before) :
    tokens dialect (.outside before) text = tokens dialect (.outside other) text := by
  cases text with
  | nil => simp [tokens]
  | cons c rest =>
    have harmless : c ∉ ['?', '*', '+', '{'] := by simpa [Settled] using settled
    simp only [List.mem_cons, List.not_mem_nil, or_false, not_or] at harmless
    obtain ⟨notMark, notStar, notPlus, notBrace⟩ := harmless
    have noSign : signBounds? c = none := by
      unfold signBounds?
      split <;> simp_all
    simp only [tokens, noSign]
    split
    all_goals first | rfl | simp [notBrace]

/-- A text that gives some tokens, the last of which can be repeated. -/
structure CutsItem (dialect : Dialect) (text : Text) (pieces : List Token) : Prop where
  settled : Settled text
  ne_nil : text ≠ []
  cut : ∀ before rest,
    tokens dialect (.outside before) (text ++ rest) = pieces ++ tokens dialect (.outside .item) rest

structure Cuts (dialect : Dialect) (text : Text) (pieces : List Token) : Prop where
  settled : Settled text
  cut : ∀ before rest, Settled rest →
    tokens dialect (.outside before) (text ++ rest) = pieces ++ tokens dialect (.outside .nothing) rest

theorem CutsItem.cuts {text : Text} {pieces : List Token} (item : CutsItem dialect text pieces) :
    Cuts dialect text pieces :=
  ⟨item.settled, fun before rest settled => by rw [item.cut, tokens_settled settled]⟩

theorem Cuts.nil : Cuts dialect [] [] := ⟨settled_nil, fun _ _ settled => tokens_settled settled _ _⟩

theorem Cuts.append {first second : Text} {pieces more : List Token} (one : Cuts dialect first pieces)
    (other : Cuts dialect second more) : Cuts dialect (first ++ second) (pieces ++ more) := by
  refine ⟨one.settled.append other.settled, fun before rest settled => ?_⟩
  rw [List.append_assoc, one.cut before _ (other.settled.append settled), other.cut _ rest settled, List.append_assoc]

theorem CutsItem.append {first second : Text} {pieces more : List Token} (one : CutsItem dialect first pieces)
    (other : CutsItem dialect second more) : CutsItem dialect (first ++ second) (pieces ++ more) := by
  refine ⟨one.settled.append other.settled, by simp [one.ne_nil], fun before rest => ?_⟩
  rw [List.append_assoc, one.cut, other.cut, List.append_assoc]

theorem Cuts.bar {first second : Text} {pieces more : List Token} (one : Cuts dialect first pieces)
    (other : Cuts dialect second more) : Cuts dialect (first ++ ['|'] ++ second) (pieces ++ [.bar] ++ more) := by
  refine Cuts.append (one.append ⟨settled_cons (by simp), fun before rest settled => ?_⟩) other
  simp [tokens, signBounds?]

theorem Cuts.tokens_eq {text : Text} {pieces : List Token} (cuts : Cuts dialect text pieces) :
    tokens dialect (.outside .nothing) text = pieces := by
  simpa [tokens] using cuts.cut .nothing [] settled_nil

def signs : List Char := ['?', '*', '+', '\\', '(', ')', '|', '[', '.', '^', '$', '{']

theorem cutsItem_plain {c : Char} (plain : c ∉ signs) : CutsItem dialect [c] [.item (.char (.single c))] := by
  simp only [signs, List.mem_cons, List.not_mem_nil, or_false, not_or] at plain
  refine ⟨settled_cons (by simp [plain]), by simp, fun before rest => ?_⟩
  simp only [List.cons_append, List.nil_append, tokens, signBounds?]
  split
  all_goals simp_all

theorem cutsItem_escaped {c : Char} {set : CharSet} (known : (escaped? c).map Escaped.set = some set) :
    CutsItem dialect ['\\', c] [.item (.char set)] := by
  obtain ⟨escaped, means, rfl⟩ := Option.map_eq_some_iff.mp known
  refine ⟨settled_cons (by simp), by simp, fun before rest => ?_⟩
  simp [tokens, signBounds?, means]

theorem cutsItem_dot : CutsItem dialect ['.'] [.item (.char .anyCharacter)] :=
  ⟨settled_cons (by simp), by simp, fun before rest => by simp [tokens, signBounds?]⟩

theorem cutsItem_start : CutsItem dialect ['^'] [.item .atStart] :=
  ⟨settled_cons (by simp), by simp, fun before rest => by simp [tokens, signBounds?]⟩

theorem cutsItem_end : CutsItem dialect ['$'] [.item .atEnd] :=
  ⟨settled_cons (by simp), by simp, fun before rest => by simp [tokens, signBounds?]⟩

structure Opens (dialect : Dialect) (sign : Text) (kind : Opening) : Prop where
  settled : Settled sign
  cut : ∀ before rest, Settled rest →
    tokens dialect (.outside before) (sign ++ rest) = .opening kind :: tokens dialect (.outside .nothing) rest

theorem opens_plain : Opens dialect ['(', '?', ':'] .plain :=
  ⟨settled_cons (by simp), fun before rest _ => by simp [tokens, signBounds?]⟩

theorem opens_ahead (positive : Bool) : Opens dialect (Node.aheadSign positive) (.look positive) := by
  refine ⟨settled_cons (by simp), fun before rest _ => ?_⟩
  cases positive <;> simp [Node.aheadSign, tokens, signBounds?]

/-- The names that groups can have. -/
def ValidName (name : Text) : Prop := name ≠ [] ∧ ∀ c ∈ name, isNameCharacter c

private theorem tokens_name {name : Text} (valid : ∀ c ∈ name, isNameCharacter c) (read : List Char)
    (nonempty : read.reverse ++ name ≠ []) (rest : Text) :
    tokens dialect (.name read) (name ++ '>' :: rest) =
      .opening (.capture (some (read.reverse ++ name))) :: tokens dialect (.outside .nothing) rest := by
  induction name generalizing read with
  | nil => simp_all [tokens]
  | cons c name ih =>
    have letter : isNameCharacter c := valid c List.mem_cons_self
    have inside : c ≠ '>' := by
      rintro rfl
      exact absurd letter (by decide)
    simp only [List.cons_append, tokens, inside, letter, false_and, if_false, if_true]
    rw [ih (fun other member => valid other (List.mem_cons_of_mem c member)) _ (by simp)]
    simp

theorem opens_capture {name : Option Text} (valid : ∀ text ∈ name, ValidName text) :
    Opens dialect (Node.captureSign name) (.capture name) := by
  cases name with
  | none =>
    refine ⟨settled_cons (by simp), fun before rest settled => ?_⟩
    simp [Node.captureSign, tokens, signBounds?, settled.head?_ne]
  | some name =>
    obtain ⟨nonempty, letters⟩ := valid name rfl
    refine ⟨settled_cons (by simp), fun before rest _ => ?_⟩
    simp only [Node.captureSign, List.cons_append, List.nil_append, List.append_assoc, tokens, signBounds?]
    simpa using tokens_name letters [] (by simpa using nonempty) rest

theorem Opens.cutsItem {sign inside : Text} {kind : Opening} {pieces : List Token} (opens : Opens dialect sign kind)
    (cuts : Cuts dialect inside pieces) :
    CutsItem dialect (sign ++ inside ++ [')']) ([.opening kind] ++ pieces ++ [.closing]) := by
  refine ⟨(opens.settled.append cuts.settled).append (settled_cons (by simp)), by simp, fun before rest => ?_⟩
  have closes : Settled (')' :: rest) := settled_cons (by simp)
  have both : Settled (inside ++ ')' :: rest) := cuts.settled.append closes
  simp only [List.append_assoc, List.cons_append, List.nil_append]
  rw [opens.cut before _ both, cuts.cut _ _ closes]
  simp [tokens, signBounds?]

theorem cutsItem_grouped {inside : Text} {pieces : List Token} (cuts : Cuts dialect inside pieces) :
    CutsItem dialect (grouped inside) ([.opening .plain] ++ pieces ++ [.closing]) :=
  opens_plain.cutsItem cuts

def meant (dialect : Dialect) (times : Repetition) : Bounds :=
  match times with
  | .between least most => ⟨least.getD 0, most.bind (limit? dialect)⟩
  | .exactly count => ⟨count, limit? dialect count⟩
  | times => times.bounds

def Allowed (dialect : Dialect) (times : Repetition) : Prop :=
  match times with
  | .between least most => (∀ n ∈ least, dialect.allows n) ∧ ∀ n ∈ most, dialect.allows n
  | .exactly count => dialect.allows count
  | _ => True

private def written (bound : Option Nat) : Text := (bound.map Repetition.digits).getD []

private theorem isDigit_of_written {bound : Option Nat} {c : Char} (member : c ∈ written bound) : c.isDigit := by
  cases bound with
  | none => simp [written] at member
  | some n => exact Nat.isDigit_of_mem_toDigits (by decide) (by decide) member

private theorem number_written (bound : Option Nat) : number (written bound) = bound.getD 0 := by
  cases bound with
  | none => rfl
  | some n => exact Nat.ofDigitChars_ten_toDigits

private theorem isEmpty_written (bound : Option Nat) : (written bound).isEmpty = bound.isNone := by
  cases bound with
  | none => rfl
  | some n => simp [written, Repetition.digits, Nat.toDigits_ne_nil]

private theorem takeWhile_written (bound : Option Nat) {c : Char} (stop : c.isDigit = false) (rest : Text) :
    (written bound ++ c :: rest).takeWhile Char.isDigit = written bound := by
  rw [List.takeWhile_append_of_pos fun _ member => isDigit_of_written member]
  simp [stop]

private theorem dropWhile_written (bound : Option Nat) {c : Char} (stop : c.isDigit = false) (rest : Text) :
    (written bound ++ c :: rest).dropWhile Char.isDigit = c :: rest := by
  rw [List.dropWhile_append_of_pos fun _ member => isDigit_of_written member]
  simp [stop]

private theorem bound?_written {bound : Option Nat} (allowed : ∀ n ∈ bound, dialect.allows n) :
    bound? dialect (written bound) = some (bound.getD 0) := by
  have fits : dialect.allows (bound.getD 0) := by
    cases bound with
    | none => cases greatest : dialect.greatest <;> simp [Dialect.allows, greatest]
    | some n => exact allowed n rfl
  rw [bound?, number_written, if_pos fits]

private theorem bounds?_between {least most : Option Nat} (allowed : Allowed dialect (.between least most))
    (rest : Text) :
    bounds? dialect (written least ++ ',' :: (written most ++ '}' :: rest)) =
      some (meant dialect (.between least most)) := by
  have comma : Char.isDigit ',' = false := by decide
  have brace : Char.isDigit '}' = false := by decide
  simp only [bounds?, takeWhile_written _ comma, dropWhile_written _ comma, takeWhile_written _ brace,
    dropWhile_written _ brace, bound?_written allowed.1, bound?_written allowed.2, isEmpty_written, meant]
  cases most <;> rfl

private theorem bounds?_exactly {count : Nat} (allowed : Allowed dialect (.exactly count)) (rest : Text) :
    bounds? dialect (Repetition.digits count ++ '}' :: rest) = some (meant dialect (.exactly count)) := by
  have brace : Char.isDigit '}' = false := by decide
  have low : Repetition.digits count = written (some count) := rfl
  have allows : ∀ n ∈ some count, dialect.allows n := by simpa [Allowed] using allowed
  have fits : bound? dialect (written (some count)) = some count := bound?_written allows
  simp only [bounds?, low, takeWhile_written _ brace, dropWhile_written _ brace, fits, isEmpty_written, meant]
  rfl

private theorem tokens_braces {inside : Text} (bounds : Bounds) (closed : ∀ c ∈ inside, c ≠ '}') {rest : Text}
    (settled : Settled rest) :
    tokens dialect (.braces bounds) (inside ++ '}' :: rest) =
      .times bounds .greedy :: tokens dialect (.outside .nothing) rest := by
  induction inside with
  | nil =>
    simp only [List.nil_append, tokens, settled.head?_ne]
    simp [tokens_settled settled .repetition .nothing]
  | cons c inside ih =>
    have more : c ≠ '}' := closed c List.mem_cons_self
    simp [tokens, more, ih fun other member => closed other (List.mem_cons_of_mem c member)]

private theorem ne_brace_of_written {bound : Option Nat} : ∀ c ∈ written bound, c ≠ '}' := by
  rintro c member rfl
  exact absurd (isDigit_of_written member) (by decide)

private theorem tokens_open_brace {text : Text} {bounds : Bounds} (reads : bounds? dialect text = some bounds) :
    tokens dialect (.outside .item) ('{' :: text) = tokens dialect (.braces bounds) text := by
  simp [tokens, signBounds?, reads]

theorem tokens_times {times : Repetition} (allowed : Allowed dialect times) {rest : Text} (settled : Settled rest) :
    tokens dialect (.outside .item) (times.text ++ rest) =
      .times (meant dialect times) times.greed :: tokens dialect (.outside .nothing) rest := by
  have notMark := settled.head?_ne
  have after : tokens dialect _ rest = tokens dialect _ rest := tokens_settled settled .repetition .nothing
  cases times with
  | optional | oneOrMore => simp [Repetition.text, tokens, signBounds?, notMark, after, meant, Repetition.greed]
  | zeroOrMore greed =>
    cases greed
    all_goals simp [Repetition.text, tokens, signBounds?, notMark, after, meant, Repetition.greed, Repetition.bounds]
  | between least most =>
    have text : (Repetition.between least most).text ++ rest =
        '{' :: (written least ++ ',' :: (written most ++ '}' :: rest)) := by
      simp [Repetition.text, written]
    have inside : written least ++ ',' :: (written most ++ '}' :: rest) =
        (written least ++ ',' :: written most) ++ '}' :: rest := by simp
    rw [text, tokens_open_brace (bounds?_between allowed rest), inside]
    refine tokens_braces _ (fun c member => ?_) settled
    rcases List.mem_append.mp member with member | member
    · exact ne_brace_of_written c member
    · rcases List.mem_cons.mp member with rfl | member
      · decide
      · exact ne_brace_of_written c member
  | exactly count =>
    have text : (Repetition.exactly count).text ++ rest = '{' :: (Repetition.digits count ++ '}' :: rest) := by
      simp [Repetition.text]
    have inside : ∀ c ∈ written (some count), c ≠ '}' := ne_brace_of_written
    rw [text, tokens_open_brace (bounds?_exactly allowed rest)]
    exact tokens_braces _ inside settled

theorem CutsItem.times {text : Text} {pieces : List Token} {times : Repetition} (item : CutsItem dialect text pieces)
    (allowed : Allowed dialect times) :
    Cuts dialect (text ++ times.text) (pieces ++ [.times (meant dialect times) times.greed]) := by
  refine ⟨item.settled.append_of_ne_nil item.ne_nil _, fun before rest settled => ?_⟩
  rw [List.append_assoc, item.cut, tokens_times allowed settled]
  simp

/-- In the bare grammar all numbers are bounds, and each means itself. -/
theorem allowed_grammar (times : Repetition) : Allowed .grammar times := by
  cases times <;> simp [Allowed, Dialect.allows, Dialect.grammar]

theorem meant_grammar (times : Repetition) : meant .grammar times = times.bounds := by
  cases times with
  | between least most => cases most <;> rfl
  | _ => rfl

end FluentPattern.Proofs.Tokens
