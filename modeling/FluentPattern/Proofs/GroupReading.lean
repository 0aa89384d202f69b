import FluentPattern.Regex.Limits
import FluentPattern.Regex.Reader

/-! How a text is read that is a part of another one. A step of the reader looks at the innermost open group only, so
what is around a text makes no difference to it, and neither does what stands before it in the same branch. -/

namespace FluentPattern.Proofs.GroupReading
open Regex

variable {dialect : Dialect}

def change? : Token → Option (Regex → Regex)
  | .times bounds greed => some fun piece => .loop piece bounds greed
  | .possessive => some .commit
  | _ => none

inductive Steps (dialect : Dialect) : Reading → Token → Reading → Prop
  | item (inside around regex) : Steps dialect ⟨inside, around⟩ (.item regex) ⟨inside.push regex, around⟩
  | bar (inside around) : Steps dialect ⟨inside, around⟩ .bar ⟨inside.next, around⟩
  | opening (inside around kind) : Steps dialect ⟨inside, around⟩ (.opening kind) ⟨{}, (kind, inside) :: around⟩
  | closing (inside around kind) (outer : Branches) :
      Steps dialect ⟨inside, (kind, outer) :: around⟩ .closing ⟨outer.push (kind.close inside.whole), around⟩
  | change {token change} (sign : change? token = some change) (done earlier around) {piece}
      (repeatable : dialect.repeatsAll || piece.isRepeatable) :
      Steps dialect ⟨⟨done, piece :: earlier⟩, around⟩ token ⟨⟨done, change piece :: earlier⟩, around⟩

private theorem changeLast_eq_ok_iff {reading next : Reading} {token : Token} {change : Regex → Regex}
    (sign : change? token = some change) :
    reading.changeLast dialect change = .ok next ↔ Steps dialect reading token next := by
  obtain ⟨⟨done, pieces⟩, around⟩ := reading
  constructor
  · intro changed
    unfold Reading.changeLast at changed
    split at changed
    next => cases changed
    next piece earlier same =>
      split at changed
      next repeatable =>
        cases changed
        cases same
        exact .change sign done earlier around repeatable
      next => cases changed
  · intro steps
    cases steps with
    | change sign' _ earlier _ repeatable =>
      obtain rfl := Option.some.inj (sign.symm.trans sign')
      exact if_pos repeatable
    | item | bar | opening | closing => cases sign

theorem step_eq_ok_iff {reading next : Reading} {token : Token} :
    reading.step dialect token = .ok next ↔ Steps dialect reading token next := by
  obtain ⟨inside, around⟩ := reading
  cases token with
  | times bounds greed => exact changeLast_eq_ok_iff rfl
  | possessive => exact changeLast_eq_ok_iff rfl
  | fault fault =>
    refine ⟨nofun, fun steps => ?_⟩
    cases steps with
    | change sign => cases sign
  | item | bar | opening =>
    constructor
    · intro same
      cases same
      constructor
    · intro steps
      cases steps with
      | change sign => cases sign
      | _ => rfl
  | closing =>
    constructor
    · intro same
      match around with
      | [] => cases same
      | (kind, outer) :: around => exact Except.ok.inj same ▸ .closing inside around kind outer
    · intro steps
      cases steps with
      | closing => rfl
      | change sign => cases sign

inductive Runs (dialect : Dialect) : Reading → List Token → Reading → Prop
  | nil (reading) : Runs dialect reading [] reading
  | cons {reading token next pieces last} (first : Steps dialect reading token next)
      (rest : Runs dialect next pieces last) : Runs dialect reading (token :: pieces) last

theorem run_eq_ok_iff {reading next : Reading} {pieces : List Token} :
    reading.run dialect pieces = .ok next ↔ Runs dialect reading pieces next := by
  induction pieces generalizing reading with
  | nil =>
    refine ⟨fun same => Except.ok.inj same ▸ .nil reading, fun runs => ?_⟩
    cases runs
    rfl
  | cons token pieces ih =>
    constructor
    · intro same
      unfold Reading.run at same
      split at same
      next middle first => exact .cons (step_eq_ok_iff.mp first) (ih.mp same)
      next => cases same
    · intro runs
      cases runs with
      | cons first rest =>
        unfold Reading.run
        rw [step_eq_ok_iff.mpr first]
        exact ih.mpr rest

namespace Runs

variable {reading middle next : Reading} {one other pieces : List Token}

theorem append (first : Runs dialect reading one middle) (second : Runs dialect middle other next) :
    Runs dialect reading (one ++ other) next := by
  induction first with
  | nil => exact second
  | cons step _ ih => exact .cons step (ih second)

theorem run_append (first : Runs dialect reading one middle) (other : List Token) :
    reading.run dialect (one ++ other) = middle.run dialect other := by
  induction first with
  | nil => rfl
  | cons step _ ih =>
    rw [List.cons_append, Reading.run, step_eq_ok_iff.mpr step]
    exact ih

/-- A text is read in one way only, so the reading of two texts leads over the reading of the first one. -/
theorem of_append (first : Runs dialect reading one middle) (both : Runs dialect reading (one ++ other) next) :
    Runs dialect middle other next := by
  rw [← run_eq_ok_iff] at both ⊢
  rw [← both, first.run_append]

theorem ne_fault (runs : Runs dialect reading pieces next) (fault : Fault) : .fault fault ∉ pieces := by
  induction runs with
  | nil => exact List.not_mem_nil
  | cons step _ ih =>
    intro member
    rcases List.mem_cons.mp member with rfl | member
    · cases step with
      | change sign => cases sign
    · exact ih member

theorem single {token : Token} (step : Steps dialect reading token next) : Runs dialect reading [token] next :=
  .cons step (.nil next)

/-- Whatever is around what is open stays as it is. -/
theorem frame (runs : Runs dialect reading pieces next) (outer : List (Opening × Branches)) :
    Runs dialect ⟨reading.inside, reading.around ++ outer⟩ pieces ⟨next.inside, next.around ++ outer⟩ := by
  induction runs with
  | nil => exact .nil _
  | cons step _ ih =>
    refine .cons ?_ ih
    cases step with
    | item => exact .item ..
    | bar => exact .bar ..
    | opening => exact .opening ..
    | closing => exact .closing ..
    | change sign _ _ _ repeatable => exact .change sign _ _ _ repeatable

theorem group {inside : Branches} (runs : Runs dialect {} pieces ⟨inside, []⟩) (kind : Opening) (reading : Reading) :
    Runs dialect reading ([.opening kind] ++ pieces ++ [.closing])
      { reading with inside := reading.inside.push (kind.close inside.whole) } := by
  refine (Runs.single (.opening ..)).append ?_ |>.append (.single (.closing ..))
  exact runs.frame ((kind, reading.inside) :: reading.around)

end Runs

def Blank (base : Branches) : Prop := base.done = [] ∧ ∀ piece ∈ base.pieces, piece.isEmpty

/-- The branches that are read in front of a text go on in the first branch of the text. Where they are blank, they are
lost with the end of that branch. -/
inductive Onto (base : Branches) : Branches → Branches → Prop
  | first (pieces) : Onto base ⟨[], pieces⟩ ⟨base.done, pieces ++ base.pieces⟩
  | later (blank : Blank base) {done} (ended : done ≠ []) (pieces) : Onto base ⟨done, pieces⟩ ⟨done, pieces⟩

namespace Onto

variable {base alone branches : Branches}

private theorem current_append {front : List Regex} (blank : ∀ piece ∈ front, piece.isEmpty) (pieces : List Regex)
    (done other : List Regex) : Branches.current ⟨done, pieces ++ front⟩ = Branches.current ⟨other, pieces⟩ := by
  have none : front.reverse.filter (!·.isEmpty) = [] := by simpa using blank
  simp [Branches.current, none]

theorem push (onto : Onto base alone branches) (regex : Regex) :
    Onto base (alone.push regex) (branches.push regex) := by
  cases onto with
  | first pieces => exact .first (regex :: pieces)
  | later blank ended pieces => exact .later blank ended (regex :: pieces)

theorem next (onto : Onto base alone branches) (blank : Blank base) : Onto base alone.next branches.next := by
  cases onto with
  | first pieces =>
    rw [Branches.next, Branches.next, current_append blank.2 pieces base.done [], blank.1]
    exact .later blank (List.cons_ne_nil _ _) []
  | later blank _ pieces => exact .later blank (List.cons_ne_nil _ _) []

theorem whole_eq_of_blank (onto : Onto base alone branches) (blank : Blank alone) : branches.whole = base.whole := by
  cases onto with
  | first pieces =>
    have none : pieces.reverse.filter (!·.isEmpty) = [] := by simpa using blank.2
    simp [Branches.whole, Branches.current, none]
  | later _ ended => exact absurd blank.1 ended

theorem whole_eq (onto : Onto base alone branches) (blank : Blank base) : branches.whole = alone.whole := by
  cases onto with
  | first pieces => rw [Branches.whole, Branches.whole, current_append blank.2 pieces base.done [], blank.1]
  | later => rfl

end Onto

/-- The groups that are open around a text, the outermost of which goes on from what is in front. -/
inductive Around (base : Branches) : List (Opening × Branches) → List (Opening × Branches) → Prop
  | last (kind) {alone branches} (onto : Onto base alone branches) : Around base [(kind, alone)] [(kind, branches)]
  | cons (group) {around other} (rest : Around base around other) : Around base (group :: around) (group :: other)

inductive Carried (base : Branches) : Reading → Reading → Prop
  | flat {alone branches} (onto : Onto base alone branches) : Carried base ⟨alone, []⟩ ⟨branches, []⟩
  | nested (inside) {around other} (outside : Around base around other) : Carried base ⟨inside, around⟩ ⟨inside, other⟩

/-- The number of bars outside of all groups, where `depth` of them are open. -/
def outerBars (depth : Nat) : List Token → Nat
  | [] => 0
  | .opening _ :: rest => outerBars (depth + 1) rest
  | .closing :: rest => outerBars (depth - 1) rest
  | .bar :: rest => outerBars depth rest + if depth = 0 then 1 else 0
  | _ :: rest => outerBars depth rest

private theorem carried_step {base : Branches} {reading other next : Reading} {token : Token}
    (carried : Carried base reading other) (step : Steps dialect reading token next)
    (fits : token = .bar → reading.around = [] → Blank base) :
    ∃ last, Steps dialect other token last ∧ Carried base next last := by
  cases carried with
  | flat onto =>
    cases step with
    | item => exact ⟨_, .item .., .flat (onto.push _)⟩
    | bar => exact ⟨_, .bar .., .flat (onto.next (fits rfl rfl))⟩
    | opening => exact ⟨_, .opening .., .nested _ (.last _ onto)⟩
    | change sign _ earlier _ repeatable =>
      cases onto with
      | first => exact ⟨_, .change sign _ _ _ repeatable, .flat (.first (_ :: earlier))⟩
      | later blank ended => exact ⟨_, .change sign _ _ _ repeatable, .flat (.later blank ended (_ :: earlier))⟩
  | nested inside outside =>
    cases step with
    | item => exact ⟨_, .item .., .nested _ outside⟩
    | bar => exact ⟨_, .bar .., .nested _ outside⟩
    | opening => exact ⟨_, .opening .., .nested _ (.cons _ outside)⟩
    | closing =>
      cases outside with
      | last kind onto => exact ⟨_, .closing .., .flat (onto.push _)⟩
      | cons group rest => exact ⟨_, .closing .., .nested _ rest⟩
    | change sign _ _ _ repeatable => exact ⟨_, .change sign _ _ _ repeatable, .nested _ outside⟩

private theorem outerBars_cons {reading next : Reading} {token : Token} (step : Steps dialect reading token next)
    (rest : List Token) :
    outerBars reading.around.length (token :: rest) =
      outerBars next.around.length rest + if token = .bar ∧ reading.around = [] then 1 else 0 := by
  cases step with
  | item | opening | closing => rfl
  | bar inside around => cases around <;> simp [outerBars]
  | @change token _ sign => cases token <;> first | rfl | cases sign

/-- A text without bars outside of groups goes on in the branch before it, and any text goes on from blank branches. -/
theorem Runs.carried {base : Branches} {reading other next : Reading} {pieces : List Token}
    (runs : Runs dialect reading pieces next) (carried : Carried base reading other)
    (fits : outerBars reading.around.length pieces = 0 ∨ Blank base) :
    ∃ last, Runs dialect other pieces last ∧ Carried base next last := by
  -- The two readings differ at the bottom only, which a bar reaches where no group is open.
  induction runs generalizing other with
  | nil => exact ⟨_, .nil _, carried⟩
  | cons step _ ih =>
    rw [outerBars_cons step, Nat.add_eq_zero_iff] at fits
    obtain ⟨middle, first, carried⟩ := carried_step carried step fun bar outside =>
      fits.resolve_left fun none => by simp [bar, outside] at none
    obtain ⟨last, rest, carried⟩ := ih carried (fits.imp_left And.left)
    exact ⟨last, .cons first rest, carried⟩

def outermost (inside : Branches) : List (Opening × Branches) → Branches
  | [] => inside
  | (_, outer) :: around => outermost outer around

private theorem length_done_step {reading next : Reading} {token : Token} (step : Steps dialect reading token next) :
    (outermost next.inside next.around).done.length =
      (outermost reading.inside reading.around).done.length +
        if token = .bar ∧ reading.around = [] then 1 else 0 := by
  cases step with
  | item inside around | opening inside around | closing inside around => cases around <;> rfl
  | bar inside around => cases around <;> simp [outermost, Branches.next]
  | @change token _ sign _ _ around =>
    have other : token ≠ .bar := by
      rintro rfl
      cases sign
    cases around <;> simp [outermost, other]

/-- Each bar outside of groups ends a branch. -/
theorem Runs.length_done {reading next : Reading} {pieces : List Token} (runs : Runs dialect reading pieces next) :
    (outermost next.inside next.around).done.length =
      (outermost reading.inside reading.around).done.length + outerBars reading.around.length pieces := by
  induction runs with
  | nil => rfl
  | cons step _ ih =>
    rw [ih, length_done_step step, outerBars_cons step]
    omega

theorem le_nesting (depth : Nat) (pieces : List Token) : depth ≤ nesting depth pieces := by
  induction pieces generalizing depth with
  | nil => exact Nat.le_refl depth
  | cons token pieces ih =>
    cases token with
    | opening | closing => exact Nat.le_max_left ..
    | _ => exact ih depth

theorem nesting_mono {less more : Nat} (le : less ≤ more) (pieces : List Token) :
    nesting less pieces ≤ nesting more pieces := by
  induction pieces generalizing less more with
  | nil => exact le
  | cons token pieces ih =>
    cases token with
    | opening => exact Nat.max_le.mpr ⟨Nat.le_trans le (Nat.le_max_left ..),
        Nat.le_trans (ih (Nat.succ_le_succ le)) (Nat.le_max_right ..)⟩
    | closing => exact Nat.max_le.mpr ⟨Nat.le_trans le (Nat.le_max_left ..),
        Nat.le_trans (ih (Nat.sub_le_sub_right le 1)) (Nat.le_max_right ..)⟩
    | _ => exact ih le

private theorem nesting_cons {reading next : Reading} {token : Token} (step : Steps dialect reading token next)
    (rest : List Token) :
    nesting reading.around.length (token :: rest) = max reading.around.length (nesting next.around.length rest) := by
  cases step with
  | opening | closing => rfl
  | item | bar => exact (Nat.max_eq_right (le_nesting _ rest)).symm
  | @change token _ sign =>
    have same (depth : Nat) : nesting depth (token :: rest) = nesting depth rest := by
      cases token <;> first | rfl | cases sign
    rw [same]
    exact (Nat.max_eq_right (le_nesting _ rest)).symm

/-- Two texts one after the other are nested as deep as either of them. -/
theorem Runs.nesting_append {reading next : Reading} {pieces : List Token} (runs : Runs dialect reading pieces next)
    (rest : List Token) :
    nesting reading.around.length (pieces ++ rest) =
      max (nesting reading.around.length pieces) (nesting next.around.length rest) := by
  induction runs with
  | nil reading => exact (Nat.max_eq_right (le_nesting _ rest)).symm
  | cons step _ ih => rw [List.cons_append, nesting_cons step, nesting_cons step, ih, Nat.max_assoc]

end FluentPattern.Proofs.GroupReading
