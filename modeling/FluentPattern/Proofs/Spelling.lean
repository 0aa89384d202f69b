import FluentPattern.Proofs.GroupReading
import FluentPattern.Proofs.Regrouping
import FluentPattern.Proofs.TokenSeams

/-! What regroupings have in common. A regex is spelled by the signs of its text with those groups left out that
capture nothing, so regroupings are spelled alike. They also have equally many branches. A text spells the regex that
it is read as, which makes both a test of whether two texts can mean the same. -/

namespace FluentPattern.Regex

/-- The tokens of a regex without groups that capture nothing. -/
def signs : Regex → List Token
  | .empty => []
  | .char set => [.item (.char set)]
  | .atStart => [.item .atStart]
  | .atEnd => [.item .atEnd]
  | .seq first second => first.signs ++ second.signs
  | .alt first second => first.signs ++ .bar :: second.signs
  | .loop body bounds greed => body.signs ++ [.times bounds greed]
  | .look positive body => .opening (.look positive) :: body.signs ++ [.closing]
  | .capture name body => .opening (.capture name) :: body.signs ++ [.closing]
  | .commit body => body.signs ++ [.possessive]

def isBlank : Regex → Bool
  | .empty => true
  | .seq first second => first.isBlank && second.isBlank
  | _ => false

/-- The number of branches of a regex. A group around several of them counts as one piece, unless it stands alone. -/
def branches : Regex → Nat
  | .alt first second => first.branches + second.branches
  | .seq first second => if first.isBlank then second.branches else if second.isBlank then first.branches else 1
  | _ => 1

theorem branches_pos (regex : Regex) : 0 < regex.branches := by
  induction regex with
  | alt first second ihFirst _ => exact Nat.add_pos_left ihFirst _
  | seq first second ihFirst ihSecond =>
    unfold branches
    split
    · exact ihSecond
    · split
      · exact ihFirst
      · exact Nat.one_pos
  | _ => exact Nat.one_pos

theorem branches_of_isBlank {regex : Regex} (blank : regex.isBlank) : regex.branches = 1 := by
  induction regex with
  | seq first second _ ih =>
    simp only [isBlank, Bool.and_eq_true] at blank
    simp [branches, blank.1, ih blank.2]
  | empty => rfl
  | _ => cases blank

theorem isEmpty_iff {regex : Regex} : regex.isEmpty ↔ regex = .empty := by
  cases regex <;> simp [isEmpty]

namespace Regrouped

variable {one other : Regex}

theorem signs_eq (same : Regrouped one other) : one.signs = other.signs := by
  induction same with
  | refl => rfl
  | symm _ ih => exact ih.symm
  | trans _ _ ih ih' => exact ih.trans ih'
  | seq_assoc | alt_assoc | empty_seq | seq_empty => simp [signs]
  | seq _ _ ih ih' | alt _ _ ih ih' => simp [signs, ih, ih']
  | loop _ _ _ ih | look _ _ ih | capture _ _ ih | commit _ ih => simp [signs, ih]

theorem isBlank_eq (same : Regrouped one other) : one.isBlank = other.isBlank := by
  induction same with
  | refl | alt_assoc | alt | loop | look | capture | commit => rfl
  | symm _ ih => exact ih.symm
  | trans _ _ ih ih' => exact ih.trans ih'
  | seq_assoc | empty_seq | seq_empty => simp [isBlank, Bool.and_assoc]
  | seq _ _ ih ih' => simp [isBlank, ih, ih']

theorem branches_eq (same : Regrouped one other) : one.branches = other.branches := by
  induction same with
  | refl | loop | look | capture | commit => rfl
  | symm _ ih => exact ih.symm
  | trans _ _ ih ih' => exact ih.trans ih'
  | seq_assoc first second third =>
    cases first : first.isBlank <;> cases second : second.isBlank <;> simp [branches, isBlank, first, second]
  | empty_seq => simp [branches, isBlank]
  | seq_empty regex =>
    cases blank : regex.isBlank
    · simp [branches, blank, isBlank]
    · simp [branches, blank, branches_of_isBlank blank]
  | alt_assoc => simp [branches, Nat.add_assoc]
  | seq one other ih ih' => simp [branches, one.isBlank_eq, other.isBlank_eq, ih, ih']
  | alt _ _ ih ih' => simp [branches, ih, ih']

end Regrouped
end FluentPattern.Regex

namespace FluentPattern.Proofs.Spelling
open Regex GroupReading TokenSeams

variable {dialect : Dialect}

def trace (stack : List Opening) : Token → List Token
  | .item regex => regex.signs
  | .opening .plain => []
  | .closing => if stack.head? = some .plain then [] else [.closing]
  | token => [token]

def opened (stack : List Opening) : Token → List Opening
  | .opening kind => kind :: stack
  | .closing => stack.tail
  | _ => stack

def bare (stack : List Opening) : List Token → List Token
  | [] => []
  | token :: rest => trace stack token ++ bare (opened stack token) rest

theorem bare_append (stack : List Opening) (one other : List Token) :
    bare stack (one ++ other) = bare stack one ++ bare (one.foldl opened stack) other := by
  induction one generalizing stack with
  | nil => rfl
  | cons token one ih => simp [bare, ih]

def spelled (branches : Branches) : List Token :=
  branches.done.reverse.flatMap (·.signs ++ [.bar]) ++ branches.pieces.reverse.flatMap signs

def spelledAround : List (Opening × Branches) → List Token
  | [] => []
  | (kind, outer) :: around => spelledAround around ++ spelled outer ++ trace [] (.opening kind)

private theorem signs_seqAll (regexes : List Regex) : (seqAll regexes).signs = regexes.flatMap signs := by
  have chained : (chain regexes).signs = regexes.flatMap signs := by
    induction regexes with
    | nil => rfl
    | cons regex rest ih => simp [chain, signs, ih]
  rw [(Regrouped.seqAll_chain regexes).signs_eq, chained]

private theorem signs_altAll (done : List Regex) (last : Regex) :
    (altAll (done ++ [last])).signs = done.flatMap (·.signs ++ [.bar]) ++ last.signs := by
  induction done with
  | nil => rfl
  | cons regex done ih =>
    have step : altAll (regex :: (done ++ [last])) = .alt regex (altAll (done ++ [last])) := by cases done <;> rfl
    simp [step, signs, ih]

private theorem signs_current (branches : Branches) :
    branches.current.signs = branches.pieces.reverse.flatMap signs := by
  have kept (regexes : List Regex) : (regexes.filter (!·.isEmpty)).flatMap signs = regexes.flatMap signs := by
    induction regexes with
    | nil => rfl
    | cons regex rest ih =>
      by_cases empty : regex.isEmpty
      · have none : regex.signs = [] := by rw [isEmpty_iff.mp empty, signs]
        simp [empty, none, ih]
      · simp [empty, ih]
  rw [Branches.current, signs_seqAll, kept]

theorem signs_whole (branches : Branches) : branches.whole.signs = spelled branches := by
  rw [Branches.whole, signs_altAll, signs_current, spelled]

theorem spelled_push (branches : Branches) (regex : Regex) :
    spelled (branches.push regex) = spelled branches ++ regex.signs := by
  simp [spelled, Branches.push]

private theorem spelled_next (branches : Branches) : spelled branches.next = spelled branches ++ [.bar] := by
  simp [spelled, Branches.next, signs_current]

private theorem signs_close (kind : Opening) (inside : Regex) (stack : List Opening) :
    (kind.close inside).signs = trace [] (.opening kind) ++ inside.signs ++ trace (kind :: stack) .closing := by
  cases kind <;> simp [Opening.close, signs, trace]

private theorem spelled_step {reading next : Reading} {token : Token} (step : Steps dialect reading token next) :
    next.around.map (·.1) = opened (reading.around.map (·.1)) token ∧
      spelledAround next.around ++ spelled next.inside =
        spelledAround reading.around ++ spelled reading.inside ++ trace (reading.around.map (·.1)) token := by
  cases step with
  | item => exact ⟨rfl, by simp [spelled_push, trace]⟩
  | bar => exact ⟨rfl, by simp [spelled_next, trace]⟩
  | opening inside around kind => exact ⟨rfl, by cases kind <;> simp [spelledAround, spelled, trace]⟩
  | closing inside around kind =>
    refine ⟨rfl, ?_⟩
    simp [spelledAround, spelled_push, signs_close kind _ (around.map (·.1)), signs_whole]
  | @change token change sign done earlier around piece =>
    cases token <;> cases sign <;> exact ⟨rfl, by simp [spelled, signs, trace]⟩

/-- What has been spelled so far, the open groups included, grows with each token by what the token spells. -/
theorem spelled_of_runs {reading next : Reading} {pieces : List Token} (runs : Runs dialect reading pieces next) :
    spelledAround next.around ++ spelled next.inside =
      spelledAround reading.around ++ spelled reading.inside ++ bare (reading.around.map (·.1)) pieces := by
  induction runs with
  | nil => simp [bare]
  | cons step _ ih =>
    obtain ⟨groups, signs⟩ := spelled_step step
    rw [ih, groups, signs, bare, List.append_assoc _ _ (bare _ _)]

theorem opened_of_runs {reading next : Reading} {pieces : List Token} (runs : Runs dialect reading pieces next) :
    next.around.map (·.1) = pieces.foldl opened (reading.around.map (·.1)) := by
  induction runs with
  | nil => rfl
  | cons step _ ih => rw [ih, (spelled_step step).1, List.foldl_cons]

/-- A whole text spells the regex that it is read as. -/
theorem signs_of_runs {inside : Branches} {pieces : List Token} (runs : Runs dialect {} pieces ⟨inside, []⟩) :
    inside.whole.signs = bare [] pieces := by
  simpa [signs_whole, spelledAround, spelled] using spelled_of_runs runs

theorem length_done_lt_branches (branches : Branches) : branches.done.length < branches.whole.branches := by
  have joined (done : List Regex) (last : Regex) : done.length < (altAll (done ++ [last])).branches := by
    induction done with
    | nil => exact branches_pos last
    | cons regex done ih =>
      have step : altAll (regex :: (done ++ [last])) = .alt regex (altAll (done ++ [last])) := by cases done <;> rfl
      rw [List.cons_append, step, List.length_cons, Regex.branches]
      have first := branches_pos regex
      omega
  simpa [Branches.whole] using joined branches.done.reverse branches.current

theorem bare_ne_of_parted {one other : List Token} (parted : Parted one other) (stack : List Opening) :
    bare stack one ≠ bare stack other := by
  obtain ⟨common, bounds, greed, more, rest, rfl, rfl⟩ := parted
  rw [bare_append, bare_append]
  intro same
  cases List.append_cancel_left same

section Blank

/-- Whether what is made of empty parts only has been read as the empty regex itself. -/
def Neat (branches : Branches) : Prop := ∀ piece ∈ branches.pieces, piece.isBlank → piece.isEmpty

private theorem isBlank_seqAll (regexes : List Regex) : (seqAll regexes).isBlank = regexes.all isBlank := by
  have chained : (chain regexes).isBlank = regexes.all isBlank := by
    induction regexes with
    | nil => rfl
    | cons regex rest ih => simp [chain, isBlank, ih]
  rw [(Regrouped.seqAll_chain regexes).isBlank_eq, chained]

theorem whole_of_blank {branches : Branches} (blank : Blank branches) : branches.whole = .empty := by
  have none : branches.pieces.reverse.filter (!·.isEmpty) = [] := by simpa using blank.2
  simp [Branches.whole, Branches.current, blank.1, none, altAll, seqAll, chain]

theorem blank_of_isBlank {branches : Branches} (neat : Neat branches) (blank : branches.whole.isBlank) :
    Blank branches := by
  have one := length_done_lt_branches branches
  rw [branches_of_isBlank blank, Nat.lt_one_iff, List.length_eq_zero_iff] at one
  obtain ⟨done, pieces⟩ := branches
  obtain rfl : done = [] := one
  refine ⟨rfl, fun piece member => ?_⟩
  have each : (pieces.reverse.filter (!·.isEmpty)).all isBlank := by
    rw [← isBlank_seqAll]
    exact blank
  by_cases empty : piece.isEmpty
  · exact empty
  · refine neat piece member (List.all_eq_true.mp each piece ?_)
    simpa [empty] using member

private theorem neat_step {reading next : Reading} {token : Token} (step : Steps dialect reading token next)
    (solid : ∀ regex, token = .item regex → regex.isBlank = false) (neat : Neat reading.inside)
    (around : ∀ group ∈ reading.around, Neat group.2) : Neat next.inside ∧ ∀ group ∈ next.around, Neat group.2 := by
  have push {branches : Branches} (neat : Neat branches) {regex : Regex} (tidy : regex.isBlank → regex.isEmpty) :
      Neat (branches.push regex) := by
    intro piece member
    rcases List.mem_cons.mp member with rfl | member
    · exact tidy
    · exact neat piece member
  cases step with
  | item inside _ regex => exact ⟨push neat fun blank => by simp [solid regex rfl] at blank, around⟩
  | bar => exact ⟨nofun, around⟩
  | opening => exact ⟨nofun, List.forall_mem_cons.mpr ⟨neat, around⟩⟩
  | closing _ _ kind =>
    obtain ⟨outer, around⟩ := List.forall_mem_cons.mp around
    refine ⟨push outer fun blank => ?_, around⟩
    cases kind with
    | plain => exact isEmpty_iff.mpr (whole_of_blank (blank_of_isBlank neat blank))
    | capture | look => cases blank
  | @change token _ sign _ earlier _ piece =>
    refine ⟨fun other member blank => ?_, around⟩
    rcases List.mem_cons.mp member with rfl | member
    · cases token <;> cases sign <;> cases blank
    · exact neat other (List.mem_cons_of_mem piece member) blank

private theorem neat_of_runs {reading next : Reading} {pieces : List Token} (runs : Runs dialect reading pieces next)
    (solid : ∀ regex, .item regex ∈ pieces → regex.isBlank = false) (neat : Neat reading.inside)
    (around : ∀ group ∈ reading.around, Neat group.2) : Neat next.inside := by
  induction runs with
  | nil => exact neat
  | cons step _ ih =>
    obtain ⟨neat, around⟩ := neat_step step (fun regex same => solid regex (same ▸ List.mem_cons_self)) neat around
    exact ih (fun regex member => solid regex (List.mem_cons_of_mem _ member)) neat around

/-- A text that is made of empty parts only is read as the empty regex. -/
theorem blank_of_runs {inside : Branches} {pieces : List Token} (runs : Runs dialect {} pieces ⟨inside, []⟩)
    (solid : ∀ regex, .item regex ∈ pieces → regex.isBlank = false) (blank : inside.whole.isBlank) : Blank inside :=
  blank_of_isBlank (neat_of_runs runs solid nofun nofun) blank

theorem isBlank_of_item {scan : Scan} {text : Text} {regex : Regex} (item : .item regex ∈ tokens dialect scan text) :
    regex.isBlank = false := by
  fun_induction tokens dialect scan text
  all_goals try rcases List.mem_cons.mp item with same | item
  all_goals simp_all [isBlank]

end Blank

end FluentPattern.Proofs.Spelling
