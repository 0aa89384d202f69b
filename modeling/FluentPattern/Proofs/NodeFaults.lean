import FluentPattern.Proofs.NodeSoundness
import FluentPattern.Proofs.OpenClasses

/-! Trees without raw text that the engine refuses. What is wrong in a part of a tree is wrong in the whole of it: the
texts before that part are read to their ends, and the texts after it cannot close a class that has been left open. -/

namespace FluentPattern.Proofs.NodeFaults
open Regex Tokens NodeReading ClassTokens OpenClasses NodeSoundness

/-- Tokens that are refused, whatever has been read before them, and not for their number. -/
def Fails (pieces : List Token) : Prop :=
  ∀ reading : Reading, ∃ fault : Fault, fault.ofGrammar ∧ reading.run .engine pieces = .error fault

namespace Fails

variable {pieces rest : List Token}

theorem fault {fault : Fault} (grammar : fault.ofGrammar) : Fails [.fault fault] := fun _ => ⟨fault, grammar, rfl⟩

theorem opening (kind : Opening) (fails : Fails rest) : Fails (.opening kind :: rest) := fun _ => fails _

theorem bar (fails : Fails rest) : Fails (.bar :: rest) := fun _ => fails _

theorem after {branches : List (List Regex)} (gives : Gives .engine pieces branches) (fails : Fails rest) :
    Fails (pieces ++ rest) := by
  intro reading
  rw [gives]
  exact fails _

/-- A piece that cannot be repeated is refused at the sign of the repetition. -/
theorem times {regex : Regex} (gives : Gives .engine pieces [[regex]]) (unrepeatable : regex.isRepeatable = false)
    (bounds : Bounds) (greed : Greed) : Fails (pieces ++ .times bounds greed :: rest) := by
  intro reading
  refine ⟨.nothingToRepeat, rfl, ?_⟩
  rw [gives]
  simp [Reading.run, Reading.step, feed, Reading.changeLast, unrepeatable, Dialect.engine]

end Fails

def BreaksItem (text : Text) : Prop :=
  ∀ before rest, contained 0 rest → Fails (tokens .engine (.outside before) (text ++ rest))

/-- A text that is refused, whatever stands before it and whatever settled text after it. -/
def Breaks (text : Text) : Prop :=
  ∀ before rest, Settled rest → contained 0 rest → Fails (tokens .engine (.outside before) (text ++ rest))

theorem BreaksItem.breaks {text : Text} (breaks : BreaksItem text) : Breaks text :=
  fun before rest _ inside => breaks before rest inside

structure Neat (text : Text) : Prop where
  settled : Settled text
  even : Even text

namespace Neat

theorem nil : Neat [] := ⟨settled_nil, .nil⟩

theorem append {first second : Text} (one : Neat first) (other : Neat second) : Neat (first ++ second) :=
  ⟨one.settled.append other.settled, one.even.append other.even⟩

theorem contained_append {text rest : Text} (neat : Neat text) (inside : contained 0 rest) :
    contained 0 (text ++ rest) := by
  rwa [neat.even]

end Neat

theorem Breaks.append {first second : Text} (breaks : Breaks first) (neat : Neat second) :
    Breaks (first ++ second) := by
  intro before rest settled inside
  rw [List.append_assoc]
  exact breaks before _ (neat.settled.append settled) (neat.contained_append inside)

theorem BreaksItem.append {first second : Text} (breaks : BreaksItem first) (even : Even second) :
    BreaksItem (first ++ second) := by
  intro before rest inside
  rw [List.append_assoc]
  exact breaks before _ (by rwa [even])

theorem Breaks.after {first second : Text} {pieces : List Token} {branches : List (List Regex)}
    (cuts : Cuts .engine first pieces) (gives : Gives .engine pieces branches) (breaks : Breaks second)
    (neat : Neat second) : Breaks (first ++ second) := by
  intro before rest settled inside
  rw [List.append_assoc, cuts.cut before _ (neat.settled.append settled)]
  exact .after gives (breaks .nothing rest settled inside)

theorem Breaks.group {sign inside : Text} {kind : Opening} (opens : Opens .engine sign kind) (breaks : Breaks inside)
    (settled : Settled inside) : BreaksItem (sign ++ inside ++ [')']) := by
  intro before rest contains
  have closes : Settled (')' :: rest) := settled_cons (by simp)
  rw [List.append_assoc, List.append_assoc, List.singleton_append, opens.cut before _ (settled.append closes)]
  exact .opening kind (breaks .nothing _ closes (by rwa [contained_plain (by decide)]))

theorem Breaks.side {node : Node} (breaks : Breaks node.render) (settled : Settled node.render) :
    Breaks (if node.isChoice then grouped node.render else node.render) := by
  split
  · exact (breaks.group opens_plain settled).breaks
  · exact breaks

private theorem even_times (times : Repetition) : Even times.text := by
  have number (n : Nat) : Even (Repetition.digits n) := by
    refine .plain fun c member sign => ?_
    have digit : c.isDigit := Nat.isDigit_of_mem_toDigits (by decide) (by decide) member
    simp only [List.mem_cons, List.not_mem_nil, or_false] at sign
    rcases sign with rfl | rfl | rfl <;> cases digit
  have bound (n : Option Nat) : Even ((n.map Repetition.digits).getD []) := by
    cases n with
    | none => exact .nil
    | some n => exact number n
  have opening : Even ['{'] := .signs rfl
  have comma : Even [','] := .signs rfl
  have closing : Even ['}'] := .signs rfl
  cases times with
  | optional | oneOrMore => exact .signs rfl
  | zeroOrMore greed => cases greed <;> exact .signs rfl
  | between least most => exact (((opening.append (bound least)).append comma).append (bound most)).append closing
  | exactly count => exact (opening.append (number count)).append closing

private theorem even_captureSign {name : Option Text} (valid : ∀ text ∈ name, ValidName text) :
    Even (Node.captureSign name) := by
  cases name with
  | none => exact .signs rfl
  | some name =>
    have opening : Even ['(', '?', '<'] := .signs rfl
    have closing : Even ['>'] := .signs rfl
    refine (opening.append (.plain fun c member sign => ?_)).append closing
    have letter := (valid name rfl).2 c member
    simp only [List.mem_cons, List.not_mem_nil, or_false] at sign
    rcases sign with rfl | rfl | rfl <;> revert letter <;> decide

private theorem even_members (members : List Member) : Even (members.flatMap Member.text) := by
  have char (c : Char) : Even (classChar c) := by
    have escaped : Even (Text.escapeEach Text.classSpecials [c]) := .escapeEach (by simp [Text.classSpecials]) [c]
    simpa [Text.escapeEach, classChar] using escaped
  induction members with
  | nil => exact .nil
  | cons member members ih =>
    refine Even.append ?_ ih
    cases member with
    | single c => exact char c
    | range first last =>
      have hyphen : Even ['-'] := .signs rfl
      exact (char first).append (hyphen.append (char last))

private theorem neat_closing : Neat [')'] := ⟨settled_cons (by simp), .signs rfl⟩

theorem Neat.grouped {inside : Text} (neat : Neat inside) : Neat (grouped inside) := by
  have opening : Neat ['(', '?', ':'] := ⟨settled_cons (by simp), .signs rfl⟩
  exact (opening.append neat).append neat_closing

private theorem Neat.side {node : Node} (neat : Neat node.render) :
    Neat (if node.isChoice then FluentPattern.grouped node.render else node.render) := by
  split
  · exact neat.grouped
  · exact neat

private theorem Neat.body {node : Node} (neat : Neat node.render) :
    Neat (if node.isItem then node.render else FluentPattern.grouped node.render) := by
  split
  · exact neat
  · exact neat.grouped

private theorem body_ne_nil (node : Node) : (if node.isItem then node.render else grouped node.render) ≠ [] := by
  split
  next item =>
    cases node with
    | exact text =>
      intro none
      rw [Node.render] at none
      simp [Node.isItem, none] at item
    | oneOf parts negated => simp [Node.render]
    | capture body name => simp [Node.render]
    | _ => cases item
  next => simp [grouped]

private theorem neat_aheadSign (positive : Bool) : Neat (Node.aheadSign positive) :=
  ⟨settled_cons (by simp), .signs (by cases positive <;> rfl)⟩

private theorem neat_bar : Neat ['|'] := ⟨settled_cons (by simp), .signs rfl⟩

theorem neat {node : Node} (textual : Textual node) : Neat node.render := by
  induction textual with
  | empty => exact .nil
  | literal text =>
    have cuts : Cuts .engine _ _ := cuts_escaped text.collapseBackslashes
    exact ⟨cuts.settled, .escapeEach (by simp [Text.patternSpecials]) _⟩
  | sign known =>
    simp only [plainSigns, List.mem_cons, List.not_mem_nil, or_false] at known
    rcases known with rfl | rfl | rfl | rfl | rfl | rfl | rfl
    · exact ⟨settled_cons (by simp), .signs rfl⟩
    all_goals exact ⟨settled_cons (by simp), .escape _⟩
  | @oneOf parts members writes negated =>
    have inside : Even ((if negated then ['^'] else []) ++ parts.flatMap ClassPart.render) := by
      rw [writes.text]
      refine Even.append ?_ (even_members members)
      cases negated <;> exact .signs rfl
    exact ⟨settled_cons (by simp), by simpa [Node.render] using inside.brackets⟩
  | sequence _ _ ihFirst ihSecond => exact ihFirst.side.append ihSecond.side
  | choice _ _ ihFirst ihSecond =>
    exact (ihFirst.append neat_bar).append ihSecond
  | repeated _ _ _ ih =>
    exact ⟨ih.body.settled.append_of_ne_nil (body_ne_nil _) _, ih.body.even.append (even_times _)⟩
  | lookahead _ _ positive ihFirst ihSecond =>
    exact ((ihFirst.side.append (neat_aheadSign positive)).append ihSecond).append neat_closing
  | capture _ valid ih =>
    have opens : Opens .engine _ _ := opens_capture valid
    exact (Neat.append ⟨opens.settled, even_captureSign valid⟩ ih).append neat_closing

/-- A class without members or with a range that goes down is refused. -/
private theorem breaks_oneOf {parts : List ClassPart} {members : List Member} (writes : Writes parts members)
    {negated : Bool} (unsound : (Node.oneOf parts negated).isSound = false) :
    BreaksItem (Node.oneOf parts negated).render := by
  intro before rest inside
  simp only [Node.isSound, Bool.and_eq_false_iff, Bool.not_eq_false', List.isEmpty_iff] at unsound
  rcases unsound with none | unordered
  · obtain ⟨fault, grammar, fails⟩ := tokens_empty_class .engine negated before inside
    rw [Node.render, none, List.append_nil, fails]
    exact .fault grammar
  · have reversed : ∃ member ∈ members, ¬member.Ordered := by
      refine Classical.byContradiction fun none => ?_
      have ordered := writes.ordered.mpr fun member inside =>
        Classical.byContradiction fun reversed => none ⟨member, inside, reversed⟩
      rw [ordered] at unordered
      cases unordered
    rw [Node.render, writes.text, List.append_assoc, tokens_reversed_class reversed]
    exact .fault rfl

private theorem Breaks.bar {text : Text} (breaks : Breaks text) : Breaks (['|'] ++ text) := by
  intro before rest settledRest inside
  have fails := breaks .nothing rest settledRest inside
  simpa [tokens, signBounds?] using fails.bar

/-- A repetition is refused if its body is, and if there is nothing in it to repeat. -/
private theorem breaks_repeated {body : Node} {times : Repetition} (inside : Textual body)
    (allowed : Allowed .engine times) (unsound : (Node.repeated body times).isSound = false)
    (broken : body.isSound = false → Breaks body.render ∧ (body.isItem → BreaksItem body.render)) :
    Breaks (Node.repeated body times).render := by
  rw [Node.render]
  cases sound : body.isSound with
  | false =>
    have item : BreaksItem (if body.isItem then body.render else grouped body.render) := by
      split
      next item => exact (broken sound).2 item
      next => exact (broken sound).1.group opens_plain (neat inside).settled
    exact (item.append (even_times times)).breaks
  | true =>
    obtain ⟨meaning, fits⟩ := exists_fits inside sound
    obtain ⟨pieces, cuts, gives⟩ := fits.reads.body
    have light : body.weight ≠ .solid := by simpa [Node.isSound, sound] using unsound
    have unrepeatable : meaning.flatten.isRepeatable = false := by
      rw [isRepeatable_flatten, fits.weight]
      exact decide_eq_false light
    intro before rest settled _
    rw [List.append_assoc, cuts.cut, tokens_times allowed settled]
    exact .times gives unrepeatable _ _

/-- The text of two parts is refused if one of them is: the first one where it stands, the second one after the first
has been read to its end. -/
private theorem breaks_either {first second : Node} {left right : Text} (textual : Textual first) (neat : Neat right)
    (unsound : (first.isSound && second.isSound) = false) (broken : first.isSound = false → Breaks left)
    (reads : ∀ meaning, Reads .engine first meaning →
      ∃ pieces branches, Cuts .engine left pieces ∧ Gives .engine pieces branches)
    (broken' : second.isSound = false → Breaks right) : Breaks (left ++ right) := by
  cases sound : first.isSound with
  | false => exact (broken sound).append neat
  | true =>
    obtain ⟨meaning, fits⟩ := exists_fits textual sound
    obtain ⟨pieces, branches, cuts, gives⟩ := reads meaning fits.reads
    exact .after cuts gives (broken' (by simpa [sound] using unsound)) neat

/-- A tree that is not sound is refused. -/
theorem breaks {node : Node} (textual : Textual node) (unsound : node.isSound = false) :
    Breaks node.render ∧ (node.isItem → BreaksItem node.render) := by
  -- An item is repeated as it stands, and the signs after it are not settled: so more is needed of items than of others.
  induction textual with
  | empty | literal | sign => cases unsound
  | oneOf writes negated =>
    have breaks := breaks_oneOf writes unsound
    exact ⟨breaks.breaks, fun _ => breaks⟩
  | sequence left right ihFirst ihSecond =>
    refine ⟨breaks_either left (neat right).side unsound (fun wrong => ?_) (fun meaning reads => ?_)
      fun wrong => ?_, fun item => by cases item⟩
    · exact (ihFirst wrong).1.side (neat left).settled
    · obtain ⟨pieces, cuts, gives⟩ := reads.side
      exact ⟨pieces, _, cuts, gives⟩
    · exact (ihSecond wrong).1.side (neat right).settled
  | choice left right ihFirst ihSecond =>
    rw [Node.render, List.append_assoc]
    refine ⟨breaks_either left (neat_bar.append (neat right)) unsound (fun wrong => (ihFirst wrong).1)
      (fun meaning reads => ?_) fun wrong => (ihSecond wrong).1.bar, fun item => by cases item⟩
    obtain ⟨pieces, cuts, gives⟩ := reads.text
    exact ⟨pieces, _, cuts, gives⟩
  | repeated inside allowed _ ih => exact ⟨breaks_repeated inside allowed unsound ih, fun item => by cases item⟩
  | lookahead left right positive ihFirst ihSecond =>
    have group := ((neat_aheadSign positive).append (neat right)).append neat_closing
    rw [Node.render, List.append_assoc, List.append_assoc, ← List.append_assoc (Node.aheadSign positive)]
    refine ⟨breaks_either left group unsound (fun wrong => ?_) (fun meaning reads => ?_) fun wrong => ?_,
      fun item => by cases item⟩
    · exact (ihFirst wrong).1.side (neat left).settled
    · obtain ⟨pieces, cuts, gives⟩ := reads.side
      exact ⟨pieces, _, cuts, gives⟩
    · exact ((ihSecond wrong).1.group (opens_ahead positive) (neat right).settled).breaks
  | capture inside valid ih =>
    have breaks := (ih unsound).1.group (opens_capture valid) (neat inside).settled
    exact ⟨breaks.breaks, fun _ => breaks⟩

end FluentPattern.Proofs.NodeFaults
