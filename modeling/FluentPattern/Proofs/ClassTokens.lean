import FluentPattern.Node.Combinators
import FluentPattern.Proofs.Tokens

/-! Reading the classes that the combinators write. Every character that could be a sign in a class is escaped, so
each member of a class is read as itself, whatever stands before it and after it: the one thing that has to be known
is that no range is open. -/

namespace FluentPattern.Proofs.ClassTokens
open Regex Tokens

variable {dialect : Dialect}

inductive Member where
  | single (c : Char)
  | range (first last : Char)

def classChar (c : Char) : Text := if c ∈ Text.classSpecials then ['\\', c] else [c]

def Member.text : Member → Text
  | .single c => classChar c
  | .range first last => classChar first ++ '-' :: classChar last

def Member.set : Member → CharSet
  | .single c => .single c
  | .range first last => .range first last

def Member.Ordered : Member → Prop
  | .single _ => True
  | .range first last => first ≤ last

def unionAll (sets : List CharSet) : CharSet := sets.foldl .union .nothing

theorem any_unionAll (test : CharSet → Bool) (none : test .nothing = false)
    (union : ∀ one other, test (.union one other) = (test one || test other)) (sets : List CharSet) :
    test (unionAll sets) = sets.any test := by
  have all (start : CharSet) : test (sets.foldl .union start) = (test start || sets.any test) := by
    induction sets generalizing start with
    | nil => simp
    | cons set sets ih => simp [ih, union, Bool.or_assoc]
  rw [unionAll, all, none, Bool.false_or]

/-- A place in a class where a member can start. -/
def Ready (reading : ClassReading) : Prop := reading.outer = [] ∧ ∀ first, reading.phase ≠ .rangeFrom first

private def afterSingle (reading : ClassReading) (c : Char) : ClassReading :=
  { reading.settle with phase := .item (.single c) }

private theorem escaped?_of_special {c : Char} (special : c ∈ Text.classSpecials) :
    escaped? c = some (.char c) := by
  simp only [Text.classSpecials, List.mem_cons, List.not_mem_nil, or_false] at special
  rcases special with rfl | rfl | rfl | rfl | rfl | rfl | rfl <;> decide

private theorem operator?_of_plain {c : Char} (plain : c ∉ Text.classSpecials) (rest : Text) :
    operator? c rest = none := by
  simp only [Text.classSpecials, List.mem_cons, List.not_mem_nil, or_false, not_or] at plain
  unfold operator?
  split
  · rfl
  · split <;> simp_all

private theorem step_plain {reading : ClassReading} (ready : Ready reading) {c : Char}
    (plain : c ∉ Text.classSpecials) (rest : Text) :
    reading.step c rest = .more (afterSingle reading c) := by
  have noOperator := operator?_of_plain plain rest
  simp only [Text.classSpecials, List.mem_cons, List.not_mem_nil, or_false, not_or] at plain
  have starts (other : ClassReading) : other.start c rest = .more { other with phase := .item (.single c) } := by
    unfold ClassReading.start
    rw [noOperator]
    split <;> simp_all
  have begins : reading.begin c rest = reading.start c rest := by
    unfold ClassReading.begin
    split <;> simp_all
  unfold ClassReading.step
  cases phase : reading.phase with
  | rangeFrom first => exact absurd phase (ready.2 first)
  | opened | signed => simp [plain, begins, starts, afterSingle, ClassReading.settle, phase]
  | hyphens | between => simp [plain, starts, afterSingle, ClassReading.settle, phase]
  | item set => simp [plain, starts, afterSingle]

private theorem stepEscaped_special {reading : ClassReading} (ready : Ready reading) {c : Char}
    (special : c ∈ Text.classSpecials) : reading.stepEscaped c = .more (afterSingle reading c) := by
  unfold ClassReading.stepEscaped
  rw [escaped?_of_special special]
  cases phase : reading.phase with
  | rangeFrom first => exact absurd phase (ready.2 first)
  | _ => rfl

theorem tokens_single {reading : ClassReading} (ready : Ready reading) (c : Char) (rest : Text) :
    tokens dialect (.insideClass reading) (classChar c ++ rest) =
      tokens dialect (.insideClass (afterSingle reading c)) rest := by
  unfold classChar
  split
  next special => simp [tokens, stepEscaped_special ready special]
  next plain =>
    have notEscape : c ≠ '\\' := by
      rintro rfl
      exact plain (by decide)
    simp [tokens, notEscape, step_plain ready plain]

private theorem ready_afterSingle {reading : ClassReading} (ready : Ready reading) (c : Char) :
    Ready (afterSingle reading c) := by
  refine ⟨?_, by simp [afterSingle]⟩
  have outer := ready.1
  unfold afterSingle ClassReading.settle
  split <;> exact outer

/-- A member begins neither like the end of a class nor like an operator. -/
private theorem head?_classChar (c : Char) (rest : Text) :
    (classChar c ++ rest).head? ≠ some ']' ∧ (classChar c ++ rest).head? ≠ some '-' := by
  unfold classChar
  split
  next => simp
  next plain =>
    simp only [Text.classSpecials, List.mem_cons, List.not_mem_nil, or_false, not_or] at plain
    simp [plain]

private def afterRange (reading : ClassReading) (first last : Char) : ClassReading :=
  reading.settle.add (.range first last) .between

/-- A range whose ends are not in order ends the reading. -/
theorem tokens_range {reading : ClassReading} (ready : Ready reading) (first last : Char) (rest : Text) :
    tokens dialect (.insideClass reading) (classChar first ++ '-' :: (classChar last ++ rest)) =
      if first ≤ last then tokens dialect (.insideClass (afterRange reading first last)) rest
      else [.fault .reversedRange] := by
  obtain ⟨notClosing, notHyphen⟩ := head?_classChar last rest
  rw [tokens_single ready first]
  have opens : (afterSingle reading first).step '-' (classChar last ++ rest) =
      .more { reading.settle with phase := .rangeFrom first } := by
    have range : '-' = '-' ∧ (classChar last ++ rest).head? ≠ some ']' ∧ (classChar last ++ rest).head? ≠ some '-' :=
      ⟨rfl, notClosing, notHyphen⟩
    exact if_pos range
  have hyphen : '-' ≠ '\\' := by decide
  simp only [tokens, hyphen, if_false, opens]
  unfold classChar
  split
  next special =>
    have ends : ClassReading.stepEscaped { reading.settle with phase := .rangeFrom first } last =
        if first ≤ last then .more (afterRange reading first last) else .fault .reversedRange := by
      simp only [ClassReading.stepEscaped, escaped?_of_special special]
      rfl
    by_cases ordered : first ≤ last <;> simp [tokens, ends, ordered]
  next plain =>
    simp only [Text.classSpecials, List.mem_cons, List.not_mem_nil, or_false, not_or] at plain
    have ends : ClassReading.step { reading.settle with phase := .rangeFrom first } last rest =
        if first ≤ last then .more (afterRange reading first last) else .fault .reversedRange := by
      simp only [ClassReading.step, plain, if_false]
      rfl
    by_cases ordered : first ≤ last <;> simp [tokens, plain, ends, ordered]

private theorem ready_afterRange {reading : ClassReading} (ready : Ready reading) (first last : Char) :
    Ready (afterRange reading first last) := by
  refine ⟨?_, by simp [afterRange, ClassReading.add]⟩
  have outer := ready.1
  unfold afterRange ClassReading.add ClassReading.settle
  split <;> exact outer

private def afterMember (reading : ClassReading) : Member → ClassReading
  | .single c => afterSingle reading c
  | .range first last => afterRange reading first last

private theorem tokens_member {reading : ClassReading} (ready : Ready reading) {member : Member}
    (ordered : member.Ordered) (rest : Text) :
    tokens dialect (.insideClass reading) (member.text ++ rest) =
      tokens dialect (.insideClass (afterMember reading member)) rest := by
  cases member with
  | single c => exact tokens_single ready c rest
  | range first last =>
    have inOrder : first ≤ last := ordered
    simpa [Member.text, afterMember, inOrder] using tokens_range ready first last rest

private theorem ready_afterMember {reading : ClassReading} (ready : Ready reading) (member : Member) :
    Ready (afterMember reading member) := by
  cases member with
  | single c => exact ready_afterSingle ready c
  | range first last => exact ready_afterRange ready first last

private theorem settle_afterMember (reading : ClassReading) (member : Member) :
    (afterMember reading member).settle.inner = reading.settle.inner.add member.set := by
  cases member <;> rfl

private theorem tokens_members {members : List Member} (ordered : ∀ member ∈ members, member.Ordered)
    {reading : ClassReading} (ready : Ready reading) (rest : Text) :
    tokens dialect (.insideClass reading) (members.flatMap Member.text ++ rest) =
      tokens dialect (.insideClass (members.foldl afterMember reading)) rest := by
  induction members generalizing reading with
  | nil => rfl
  | cons member members ih =>
    rw [List.flatMap_cons, List.append_assoc, tokens_member ready (ordered member List.mem_cons_self)]
    exact ih (fun other inside => ordered other (List.mem_cons_of_mem _ inside)) (ready_afterMember ready member)

/-- A class ends the reading at the first range whose ends are not in order. -/
private theorem tokens_reversed {members : List Member} (reversed : ∃ member ∈ members, ¬member.Ordered)
    {reading : ClassReading} (ready : Ready reading) (rest : Text) :
    tokens dialect (.insideClass reading) (members.flatMap Member.text ++ rest) = [.fault .reversedRange] := by
  induction members generalizing reading with
  | nil => simp at reversed
  | cons member members ih =>
    rw [List.flatMap_cons, List.append_assoc]
    by_cases ordered : member.Ordered
    · rw [tokens_member ready ordered]
      exact ih (by simpa [ordered] using reversed) (ready_afterMember ready member)
    · cases member with
      | single c => exact absurd trivial ordered
      | range first last =>
        have reversed : ¬first ≤ last := ordered
        simpa [Member.text, reversed] using tokens_range ready first last _

private theorem foldl_afterMember (members : List Member) (reading : ClassReading) :
    (members.foldl afterMember reading).settle.inner =
      (members.map Member.set).foldl Bracket.add reading.settle.inner := by
  induction members generalizing reading with
  | nil => rfl
  | cons member members ih => rw [List.foldl_cons, ih, settle_afterMember, List.map_cons, List.foldl_cons]

private theorem foldl_add (sets : List CharSet) (bracket : Bracket) :
    sets.foldl Bracket.add bracket = { bracket with items := sets.foldl .union bracket.items } := by
  induction sets generalizing bracket with
  | nil => rfl
  | cons set sets ih => exact ih _

private def Closes (reading : ClassReading) : Prop := reading.phase = .between ∨ ∃ set, reading.phase = .item set

private theorem closes_afterMember (reading : ClassReading) (member : Member) :
    Closes (afterMember reading member) := by
  cases member with
  | single c => exact .inr ⟨_, rfl⟩
  | range first last => exact .inl rfl

private theorem closes_foldl {members : List Member} (nonempty : members ≠ []) (reading : ClassReading) :
    Closes (members.foldl afterMember reading) := by
  obtain ⟨earlier, last, rfl⟩ := List.eq_nil_or_concat members |>.resolve_left nonempty
  rw [List.concat_eq_append, List.foldl_append]
  exact closes_afterMember _ last

private theorem ready_foldl (members : List Member) {reading : ClassReading} (ready : Ready reading) :
    Ready (members.foldl afterMember reading) := by
  induction members generalizing reading with
  | nil => exact ready
  | cons member members ih => exact ih (ready_afterMember ready member)

private theorem tokens_close {reading : ClassReading} (ready : Ready reading) (closes : Closes reading) (rest : Text) :
    tokens dialect (.insideClass reading) (']' :: rest) =
      .item (.char reading.settle.inner.set) :: tokens dialect (.outside .item) rest := by
  have outer : reading.settle.outer = [] := by
    unfold ClassReading.settle
    split <;> exact ready.1
  have noOperator : operator? ']' rest = none := by unfold operator?; split <;> rfl
  have starts (other : ClassReading) (none : other.outer = []) : other.start ']' rest = .closed other.inner.set := by
    simp [ClassReading.start, noOperator, ClassReading.close, none]
  have step : reading.step ']' rest = .closed reading.settle.inner.set := by
    rcases closes with phase | ⟨set, phase⟩
    · simp [ClassReading.step, phase, starts _ ready.1, ClassReading.settle]
    · simp [ClassReading.step, phase, starts _ outer]
  simp [tokens, step]

theorem cutsItem_class {members : List Member} (nonempty : members ≠ [])
    (ordered : ∀ member ∈ members, member.Ordered) (negated : Bool) :
    CutsItem dialect (['['] ++ (if negated then ['^'] else []) ++ members.flatMap Member.text ++ [']'])
      [.item (.char (.brackets negated (unionAll (members.map Member.set))))] := by
  refine ⟨settled_cons (by simp), by simp, fun before rest => ?_⟩
  have inside (reading : ClassReading) (ready : Ready reading) (none : reading.inner.left = none)
      (settled : reading.settle = reading) (items : reading.inner.items = .nothing) :
      tokens dialect (.insideClass reading) (members.flatMap Member.text ++ ']' :: rest) =
        .item (.char (.brackets reading.inner.negated (unionAll (members.map Member.set)))) ::
          tokens dialect (.outside .item) rest := by
    rw [tokens_members ordered ready, tokens_close (ready_foldl members ready) (closes_foldl nonempty reading),
      foldl_afterMember, foldl_add, settled, items]
    simp [Bracket.set, Bracket.inside, none, unionAll]
  cases negated with
  | false =>
    have opened : Ready {} := ⟨rfl, by simp⟩
    simpa [tokens, signBounds?] using inside {} opened rfl rfl rfl
  | true =>
    have signed : Ready { inner := { negated := true }, phase := .signed } := ⟨rfl, by simp⟩
    simpa [tokens, signBounds?, ClassReading.step] using inside _ signed rfl rfl rfl

theorem tokens_reversed_class {members : List Member} (reversed : ∃ member ∈ members, ¬member.Ordered) (negated : Bool)
    (before : Before) (rest : Text) :
    tokens dialect (.outside before)
        (['['] ++ (if negated then ['^'] else []) ++ members.flatMap Member.text ++ rest) =
      [.fault .reversedRange] := by
  cases negated with
  | false =>
    have opened : Ready {} := ⟨rfl, by simp⟩
    simpa [tokens, signBounds?] using tokens_reversed reversed opened rest
  | true =>
    have signed : Ready { inner := { negated := true }, phase := .signed } := ⟨rfl, by simp⟩
    simpa [tokens, signBounds?, ClassReading.step] using tokens_reversed reversed signed rest

end FluentPattern.Proofs.ClassTokens
