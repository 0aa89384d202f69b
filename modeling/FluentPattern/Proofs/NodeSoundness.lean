import FluentPattern.Proofs.SourceReading
import FluentPattern.Proofs.StraightBounds
import Mathlib.Algebra.Group.Int.Defs
import Mathlib.Algebra.Group.Nat.Defs

/-! Trees without raw text that the engine has a meaning for. Texts that stand for themselves, signs and groups never go
wrong. A class does if it has no members, or a range that goes down. A repetition does if there is nothing for the
engine to repeat: no text at all, or a condition on the text ahead and nothing else. -/

namespace FluentPattern

def ClassPart.inOrder : ClassPart → Bool
  | .characters _ => true
  | .range first last =>
    match first.getLast?, last.getLast? with
    | some low, some high => low ≤ high
    | _, _ => true

def Repetition.counts : Repetition → List Nat
  | .optional | .oneOrMore | .zeroOrMore _ => []
  | .between least most => least.toList ++ most.toList
  | .exactly count => [count]

theorem Repetition.straight_ofBounds (low high : Option Int) : (ofBounds low high).bounds.reversed = false := by
  cases low with
  | none => cases high <;> rfl
  | some low =>
    cases high with
    | none => rfl
    | some high =>
      have inOrder : (min low high).toNat ≤ (max low high).toNat := by omega
      exact decide_eq_false (Nat.not_lt.mpr inOrder)

theorem Repetition.counts_ofBounds {low high : Option Int} (small : ∀ bound ∈ low, bound < 2 ^ 63)
    (small' : ∀ bound ∈ high, bound < 2 ^ 63) : ∀ count ∈ (ofBounds low high).counts, count < 2 ^ 64 := by
  cases low with
  | none =>
    cases high with
    | none => simp [ofBounds, counts]
    | some high =>
      have above := small' high rfl
      simp only [ofBounds, counts, Option.toList, List.append_nil, List.forall_mem_singleton]
      omega
  | some low =>
    have below := small low rfl
    cases high with
    | none =>
      simp only [ofBounds, counts, Option.toList, List.append_nil, List.forall_mem_singleton]
      omega
    | some high =>
      have above := small' high rfl
      simp only [ofBounds, counts, Option.toList, List.cons_append, List.nil_append, List.forall_mem_cons]
      exact ⟨by omega, by omega, List.forall_mem_nil _⟩

/-- What there is to repeat in a piece of a pattern. -/
inductive Weight where
  | nothing
  /-- A condition on the text ahead, and nothing else. -/
  | condition
  | solid
deriving DecidableEq

def Weight.join : Weight → Weight → Weight
  | .nothing, second => second
  | first, .nothing => first
  | _, _ => .solid

namespace Node

def weight : Node → Weight
  | .empty => .nothing
  | .exact text => if text = [] then .nothing else .solid
  | .oneOf .. | .choice .. | .repeated .. | .capture .. => .solid
  | .sequence first second => first.weight.join second.weight
  | .lookahead subject _ _ => subject.weight.join .condition

/-- Whether every class of a tree has members, all its ranges go up, and every repetition has something to repeat. -/
def isSound : Node → Bool
  | .empty | .exact _ => true
  | .oneOf parts _ => !(parts.flatMap ClassPart.render).isEmpty && parts.all ClassPart.inOrder
  | .sequence first second | .choice first second | .lookahead first second _ => first.isSound && second.isSound
  | .repeated body _ => body.weight = .solid && body.isSound
  | .capture body _ => body.isSound

end Node

namespace Proofs.NodeSoundness
open Regex Tokens NodeReading SourceReading ClassTokens

structure Writes (parts : List ClassPart) (members : List Member) : Prop where
  text : parts.flatMap ClassPart.render = members.flatMap Member.text
  ordered : parts.all ClassPart.inOrder ↔ ∀ member ∈ members, member.Ordered

/-- The signs that the combinators write as they are. -/
def plainSigns : List Text :=
  [['.'], ['\\', 't'], ['\\', 'd'], ['\\', 's'], ['\\', 'w'], ['\\', 'r'], ['\\', 'n']]

/-- The trees that are made without raw text, whatever the classes hold and whatever is repeated. -/
inductive Textual : Node → Prop where
  | empty : Textual .empty
  | literal (text) : Textual (.literal text)
  | sign {text} (known : text ∈ plainSigns) : Textual (.exact text)
  | oneOf {parts members} (writes : Writes parts members) (negated) : Textual (.oneOf parts negated)
  | sequence {first second} (left : Textual first) (right : Textual second) : Textual (.sequence first second)
  | choice {first second} (left : Textual first) (right : Textual second) : Textual (.choice first second)
  | repeated {body times} (inside : Textual body) (allowed : Allowed .engine times)
      (straight : (meant .engine times).reversed = false) : Textual (.repeated body times)
  | lookahead {subject ahead} (left : Textual subject) (right : Textual ahead) (positive) :
      Textual (.lookahead subject ahead positive)
  | capture {body name} (inside : Textual body) (valid : ∀ text ∈ name, ValidName text) : Textual (.capture body name)

def weigh : List Regex → Weight
  | [] => .nothing
  | [.look ..] => .condition
  | _ => .solid

private theorem weigh_several (first second : Regex) (rest : List Regex) :
    weigh (first :: second :: rest) = .solid := by
  cases first <;> rfl

private theorem weigh_ne_nothing (first : Regex) (rest : List Regex) : weigh (first :: rest) ≠ .nothing := by
  cases rest with
  | nil => cases first <;> simp [weigh]
  | cons second rest => simp [weigh_several]

theorem weigh_append (first second : List Regex) : weigh (first ++ second) = (weigh first).join (weigh second) := by
  match first, second with
  | [], _ => rfl
  | piece :: rest, [] =>
    rw [List.append_nil]
    cases weigh (piece :: rest) <;> rfl
  | piece :: rest, other :: more =>
    have whole : weigh ((piece :: rest) ++ other :: more) = .solid := by cases rest <;> exact weigh_several ..
    have left := weigh_ne_nothing piece rest
    have right := weigh_ne_nothing other more
    rw [whole]
    cases one : weigh (piece :: rest) with
    | nothing => exact absurd one left
    | condition | solid =>
      cases two : weigh (other :: more) with
      | nothing => exact absurd two right
      | condition | solid => rfl

private theorem weigh_seq (one other : Regex) :
    weigh (inSequence (Regex.seq one other).layout) =
      (weigh (inSequence one.layout)).join (weigh (inSequence other.layout)) := weigh_append _ _

private theorem weigh_alt (one other : Regex) : weigh (inSequence (Regex.alt one other).layout) = .solid := by
  obtain ⟨first, rest, left⟩ := List.exists_cons_of_ne_nil one.layout_ne_nil
  obtain ⟨second, more, right⟩ := List.exists_cons_of_ne_nil other.layout_ne_nil
  rw [layout, left, right]
  cases rest <;> rfl

/-- The engine repeats what is solid. -/
theorem isRepeatable_flatten (meaning : Regex) :
    meaning.flatten.isRepeatable = decide (weigh (inSequence meaning.layout) = .solid) := by
  have solid := solid_inSequence meaning.layout_ne_nil (solid_layout meaning)
  rw [flatten, ← seqAll_inSequence]
  generalize inSequence meaning.layout = pieces at solid
  cases pieces with
  | nil => rfl
  | cons piece rest =>
    cases rest with
    | nil =>
      have some := solid piece List.mem_cons_self
      cases piece with
      | empty => cases some
      | _ => rfl
    | cons second rest => simp [weigh_several, seqAll, chain, isRepeatable]

/-- What a sound tree is read as: something of the same weight, and without reversed bounds. -/
structure Fits (node : Node) (meaning : Regex) : Prop where
  reads : Reads .engine node meaning
  weight : weigh (inSequence meaning.layout) = node.weight
  straight : meaning.hasReversedBounds = false

private theorem cutsItem_sign {text : Text} (known : text ∈ plainSigns) :
    ∃ set, CutsItem .engine text [.item (.char set)] := by
  simp only [plainSigns, List.mem_cons, List.not_mem_nil, or_false] at known
  rcases known with rfl | known
  · exact ⟨_, cutsItem_dot⟩
  · rcases known with rfl | rfl | rfl | rfl | rfl | rfl
    all_goals exact ⟨_, cutsItem_escaped rfl⟩

private theorem weigh_literal (text : Text) :
    weigh (inSequence (literalRegex text.collapseBackslashes).layout) = (Node.literal text).weight := by
  rw [layout_literalRegex, Node.literal, Node.weight, Text.escapeForPattern]
  cases text.collapseBackslashes with
  | nil => rfl
  | cons c rest =>
    have some : Text.escapeEach Text.patternSpecials (c :: rest) ≠ [] := by
      rw [Text.escapeEach_cons]
      split <;> simp
    rw [if_neg some]
    cases rest <;> rfl

namespace Fits

variable {first second body : Node} {one other : Regex}

theorem empty : Fits .empty .empty := ⟨.empty, rfl, rfl⟩

theorem literal (text : Text) : Fits (.literal text) (literalRegex text.collapseBackslashes) :=
  ⟨.literal text, weigh_literal text, by simp [literalRegex, hasReversedBounds_chain, hasReversedBounds]⟩

theorem sign {text : Text} (known : text ∈ plainSigns) : ∃ set, Fits (.exact text) (.char set) := by
  obtain ⟨set, cuts⟩ := cutsItem_sign known
  exact ⟨set, .leaf cuts, (if_neg cuts.ne_nil).symm, rfl⟩

theorem oneOf {parts : List ClassPart} {members : List Member} (writes : Writes parts members) {negated : Bool}
    (sound : (Node.oneOf parts negated).isSound) : ∃ set, Fits (.oneOf parts negated) (.char set) := by
  simp only [Node.isSound, Bool.and_eq_true, Bool.not_eq_true', List.isEmpty_eq_false_iff, writes.text,
    writes.ordered] at sound
  obtain ⟨nonempty, ordered⟩ := sound
  refine ⟨_, .members (fun none => nonempty ?_) ordered negated writes.text, rfl, rfl⟩
  rw [none, List.flatMap_nil]

theorem sequence (left : Fits first one) (right : Fits second other) : Fits (.sequence first second) (.seq one other) := by
  refine ⟨left.reads.sequence right.reads, ?_, ?_⟩
  · rw [weigh_seq, left.weight, right.weight, Node.weight]
  · simp [hasReversedBounds, left.straight, right.straight]

theorem choice (left : Fits first one) (right : Fits second other) : Fits (.choice first second) (.alt one other) := by
  refine ⟨left.reads.choice right.reads, weigh_alt one other, ?_⟩
  simp [hasReversedBounds, left.straight, right.straight]

theorem repeated (inside : Fits body one) (solid : body.weight = .solid) {times : Repetition}
    (allowed : Allowed .engine times) (straight : (meant .engine times).reversed = false) :
    Fits (.repeated body times) (.loop one (meant .engine times) times.greed) := by
  have repeatable : one.flatten.isRepeatable := by rw [isRepeatable_flatten, inside.weight]; simp [solid]
  refine ⟨inside.reads.repeated allowed (by simp [repeatable]), rfl, ?_⟩
  simp [hasReversedBounds, straight, inside.straight]

theorem lookahead (left : Fits first one) (right : Fits second other) (positive : Bool) :
    Fits (.lookahead first second positive) (.seq one (.look positive other)) := by
  refine ⟨left.reads.lookahead right.reads positive, ?_, ?_⟩
  · rw [weigh_seq, left.weight, Node.weight]
    rfl
  · simp [hasReversedBounds, left.straight, right.straight]

theorem capture (inside : Fits body one) {name : Option Text} (valid : ∀ text ∈ name, ValidName text) :
    Fits (.capture body name) (.capture name one) := ⟨inside.reads.capture valid, rfl, inside.straight⟩

theorem straight_anchored {node : Node} (fits : Fits node one) (front back : Text) :
    (anchored front back one).flatten.hasReversedBounds = false := by
  rw [hasReversedBounds_flatten, anchored]
  split <;> split <;> simp [hasReversedBounds, fits.straight]

end Fits

/-- A sound tree is read as something of the same weight. -/
theorem exists_fits {node : Node} (textual : Textual node) (sound : node.isSound) : ∃ meaning, Fits node meaning := by
  -- The weight goes along because a repetition around the tree can be read only if there is something to repeat in it.
  induction textual with
  | empty => exact ⟨_, .empty⟩
  | literal text => exact ⟨_, .literal text⟩
  | sign known =>
    obtain ⟨set, fits⟩ := Fits.sign known
    exact ⟨_, fits⟩
  | oneOf writes negated =>
    obtain ⟨set, fits⟩ := Fits.oneOf writes sound
    exact ⟨_, fits⟩
  | sequence _ _ ihFirst ihSecond =>
    simp only [Node.isSound, Bool.and_eq_true] at sound
    obtain ⟨one, first⟩ := ihFirst sound.1
    obtain ⟨other, second⟩ := ihSecond sound.2
    exact ⟨_, first.sequence second⟩
  | choice _ _ ihFirst ihSecond =>
    simp only [Node.isSound, Bool.and_eq_true] at sound
    obtain ⟨one, first⟩ := ihFirst sound.1
    obtain ⟨other, second⟩ := ihSecond sound.2
    exact ⟨_, first.choice second⟩
  | repeated _ allowed straight ih =>
    simp only [Node.isSound, Bool.and_eq_true, decide_eq_true_eq] at sound
    obtain ⟨one, body⟩ := ih sound.2
    exact ⟨_, body.repeated sound.1 allowed straight⟩
  | lookahead _ _ positive ihFirst ihSecond =>
    simp only [Node.isSound, Bool.and_eq_true] at sound
    obtain ⟨one, subject⟩ := ihFirst sound.1
    obtain ⟨other, ahead⟩ := ihSecond sound.2
    exact ⟨_, subject.lookahead ahead positive⟩
  | capture _ valid ih =>
    obtain ⟨one, body⟩ := ih sound
    exact ⟨_, body.capture valid⟩

theorem writes_classOf (chars : Text) :
    Writes [.characters chars.escapeForClass] (chars.collapseBackslashes.map .single) where
  text := text_classOf chars
  ordered := by simp [ClassPart.inOrder, Member.Ordered]

private theorem getLast?_escapeForClass (c : Char) : (Text.escapeForClass [c]).getLast? = some c := by
  rw [escapeForClass_singleton, classChar]
  split <;> rfl

theorem writes_ranges (pairs : List (Char × Char)) :
    Writes (pairs.map fun pair => .range (Text.escapeForClass [pair.1]) (Text.escapeForClass [pair.2]))
      (pairs.map fun pair => .range pair.1 pair.2) where
  text := text_ranges pairs
  ordered := by
    rw [List.all_map, List.all_eq_true, List.forall_mem_map]
    simp [ClassPart.inOrder, getLast?_escapeForClass, Member.Ordered]

namespace Textual

variable {node first second body : Node}

theorem append (left : Textual first) (right : Textual second) : Textual (first.append second) := by
  unfold Node.append
  split
  · exact right
  · exact left
  · exact left.sequence right

theorem orElse (left : Textual first) (right : Textual second) : Textual (first.orElse second) := by
  unfold Node.orElse
  split
  · exact left
  · exact left.choice right

theorem anyCharacter : Textual .anyCharacter := .sign (by simp [plainSigns])

theorem classOf (chars : Text) (negated : Bool) : Textual (.classOf chars negated) :=
  .oneOf (writes_classOf chars) negated

theorem lineBreak : Textual .lineBreak :=
  have carriageReturn : Textual (.exact ['\\', 'r']) := .sign (by simp [plainSigns])
  have lineFeed : Textual (.exact ['\\', 'n']) := .sign (by simp [plainSigns])
  .choice (.choice (.sequence carriageReturn lineFeed) carriageReturn) lineFeed

private theorem exists_chars {pairs : List (Text × Text)}
    (single : ∀ pair ∈ pairs, ∃ first last : Char, pair = ([first], [last])) :
    ∃ chars : List (Char × Char), pairs = chars.map fun pair => ([pair.1], [pair.2]) := by
  induction pairs with
  | nil => exact ⟨[], rfl⟩
  | cons pair pairs ih =>
    obtain ⟨first, last, rfl⟩ := single pair List.mem_cons_self
    obtain ⟨chars, rfl⟩ := ih fun other member => single other (List.mem_cons_of_mem _ member)
    exact ⟨(first, last) :: chars, rfl⟩

theorem ranges (before : Textual node) {pairs : List (Text × Text)}
    (single : ∀ pair ∈ pairs, ∃ first last : Char, pair = ([first], [last])) (negated : Bool) :
    Textual (node.ranges pairs negated) := by
  obtain ⟨chars, rfl⟩ := exists_chars single
  have written := Textual.oneOf (writes_ranges chars) negated
  refine before.append ?_
  simpa [Function.comp_def] using written

theorem optional (inside : Textual body) : Textual body.optional := .repeated inside trivial rfl

theorem oneOrMore (inside : Textual body) : Textual body.oneOrMore := .repeated inside trivial rfl

theorem zeroOrMore (inside : Textual body) (isLazy : Bool) : Textual (body.zeroOrMore isLazy) :=
  .repeated inside trivial rfl

private theorem allows_of_lt {n : Nat} (small : n < 2 ^ 64) : Dialect.engine.allows n := by
  have fits : n ≤ UInt64.size - 1 := Nat.le_sub_one_of_lt small
  simpa [Dialect.allows, Dialect.engine] using fits

private theorem straight_limit? {least most : Nat} (le : least ≤ most) :
    Bounds.reversed ⟨least, limit? .engine most⟩ = false := by
  unfold limit?
  split
  next => rfl
  next => exact decide_eq_false (Nat.not_lt.mpr le)

/-- The engine has every repetition with bounds of 64 bits that are in order. -/
theorem repeated_of_counts (inside : Textual body) {times : Repetition} (small : ∀ count ∈ times.counts, count < 2 ^ 64)
    (straight : times.bounds.reversed = false) : Textual (.repeated body times) := by
  cases times with
  | optional | oneOrMore | zeroOrMore => exact .repeated inside trivial rfl
  | exactly count =>
    have allowed := allows_of_lt (small count List.mem_cons_self)
    exact .repeated inside allowed (straight_limit? (Nat.le_refl count))
  | between least most =>
    have allowed {count : Nat} (member : count ∈ least.toList ++ most.toList) := allows_of_lt (small count member)
    refine .repeated inside ⟨fun count same => ?_, fun count same => ?_⟩ ?_
    · exact allowed (List.mem_append_left _ (Option.mem_toList.mpr same))
    · exact allowed (List.mem_append_right _ (Option.mem_toList.mpr same))
    · cases most with
      | none => rfl
      | some most => exact straight_limit? (Nat.not_lt.mp (of_decide_eq_false straight))

theorem repeatedExactly (inside : Textual body) {count : Nat} (small : count < 2 ^ 64) :
    Textual (body.repeatedExactly count) := by
  apply inside.repeated_of_counts
  · simpa [Repetition.counts] using small
  · exact decide_eq_false (Nat.lt_irrefl count)

theorem repeatedBetween (inside : Textual body) {low high : Option Int} (small : ∀ bound ∈ low, bound < 2 ^ 63)
    (small' : ∀ bound ∈ high, bound < 2 ^ 63) : Textual (body.repeatedBetween low high) :=
  inside.repeated_of_counts (Repetition.counts_ofBounds small small') (Repetition.straight_ofBounds low high)

end Textual

end Proofs.NodeSoundness
end FluentPattern
