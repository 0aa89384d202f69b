import FluentPattern.Proofs.DisplayedLiterals
import FluentPattern.Proofs.StepRuns
import FluentPattern.Proofs.TextCompiling
import FluentPattern.Proofs.Words

/-! The steps that take a list of characters stand for just these characters. A class is written with its members
escaped one by one and with every run of backslashes collapsed, which changes nothing about which characters are in it;
so between both anchors a class, or a class with a sign of repetition, takes the words that are made of its members, or
of no member, and have the right length. -/

namespace FluentPattern

def Repetition.isSign : Repetition → Bool
  | .optional | .oneOrMore | .zeroOrMore _ => true
  | .between .. | .exactly _ => false

namespace Proofs.ClassMatching
open Regex Tokens ClassTokens NodeReading TextCompiling Builder

def classSet (chars : Text) (negated : Bool) : CharSet :=
  .brackets negated (unionAll (chars.collapseBackslashes.map .single))

def classNode (chars : Text) (negated : Bool) : Option Repetition → Node
  | none => .classOf chars negated
  | some times => .repeated (.classOf chars negated) times

def classRegex (set : CharSet) : Option Repetition → Regex
  | none => .char set
  | some times => .loop (.char set) times.bounds times.greed

/-- The steps that take a list of characters, and the words that they match. -/
inductive ClassStep (chars : Text) : Step → (Text → Prop) → Prop where
  | oneOf : ClassStep chars (.oneOf chars) fun word => ∃ c ∈ chars, word = [c]
  | anyOf : ClassStep chars (.anyOf chars) fun word => word = [] ∨ ∃ c ∈ chars, word = [c]
  | someOf : ClassStep chars (.someOf chars) fun word => word ≠ [] ∧ ∀ c ∈ word, c ∈ chars
  | anythingBut (isLazy : Bool) : ClassStep chars (.anythingBut chars isLazy) fun word => ∀ c ∈ word, c ∉ chars
  | somethingBut : ClassStep chars (.somethingBut chars) fun word => word ≠ [] ∧ ∀ c ∈ word, c ∉ chars

section Sets

theorem contains_classSet {mode : Mode} (caseful : mode.ignoreCase = false) (chars : Text) (negated : Bool) (c : Char) :
    (classSet chars negated).contains mode c = (decide (c ∈ chars) != negated) := by
  have members : (unionAll (chars.collapseBackslashes.map .single)).holds mode c = decide (c ∈ chars) := by
    rw [any_unionAll (CharSet.holds mode · c) rfl fun _ _ => rfl, Bool.eq_iff_iff]
    simp [CharSet.holds, DisplayedLiterals.mem_collapseBackslashes]
  simp [CharSet.contains_of_not_ignoreCase caseful, classSet, CharSet.holds, Mode.passes, caseful, members]

theorem hasShorthand_members (chars : Text) :
    (unionAll (chars.collapseBackslashes.map .single)).hasShorthand = false := by
  rw [any_unionAll CharSet.hasShorthand rfl fun _ _ => rfl]
  simp [CharSet.hasShorthand]

end Sets

section Compiling

variable {chars : Text} {negated : Bool} {times : Option Repetition}

private theorem light_classRegex (mode : Mode) (signs : ∀ sign ∈ times, sign.isSign) :
    Light mode (classRegex (classSet chars negated) times) := by
  have one : Light mode (.char (classSet chars negated)) := .brackets mode negated (hasShorthand_members chars)
  cases times with
  | none => exact one
  | some times =>
    have shallow (surroundings : Surroundings) :
        (classRegex (classSet chars negated) (some times)).depth mode surroundings ≤ 4 := by
      have inner : (Regex.char (classSet chars negated)).depth mode .repetition ≤ 2 := Light.depth_brackets_le ..
      rw [classRegex, depth]
      split <;> omega
    have sign : times.isSign := signs times rfl
    cases times with
    | optional | oneOrMore | zeroOrMore => exact ⟨rfl, rfl, rfl, rfl, one.weightless, shallow⟩
    | between | exactly => cases sign

private theorem gives_classNode (nonempty : chars ≠ []) (negated : Bool) (signs : ∀ sign ∈ times, sign.isSign) :
    ∃ tokens, Cuts .engine (classNode chars negated times).render tokens ∧
      Gives .engine tokens [[classRegex (classSet chars negated) times]] ∧
      nesting 0 ([.item .atStart] ++ tokens ++ [.item .atEnd]) = 0 := by
  have item : CutsItem .engine (Node.classOf chars negated).render [.item (.char (classSet chars negated))] :=
    cutsItem_classOf nonempty negated
  have gives : Gives .engine [.item (.char (classSet chars negated))] [[.char (classSet chars negated)]] := .items [_]
  cases times with
  | none => exact ⟨_, item.cuts, gives, rfl⟩
  | some times =>
    have sign : times.isSign := signs times rfl
    cases times with
    | optional | oneOrMore | zeroOrMore => exact ⟨_, item.times trivial, gives.times rfl _ _, rfl⟩
    | between | exactly => cases sign

theorem exists_pattern (nonempty : chars ≠ []) (negated : Bool) (signs : ∀ sign ∈ times, sign.isSign) {flags : FlagSet}
    (known : flags.error? = none) :
    ∃ pattern, Builder.compile ⟨['^'], .sequence .empty (classNode chars negated times), ['$'], flags⟩ = .ok pattern ∧
      pattern.regex = seqAll [.atStart, classRegex (classSet chars negated) times, .atEnd] ∧ pattern.flags = flags := by
  obtain ⟨tokens, cuts, gives, flat⟩ := gives_classNode nonempty negated signs
  have whole := (cutsItem_start.cuts.append cuts).append cutsItem_end.cuts
  have gives : Gives .engine _ _ := ((Gives.items [.atStart]).append gives).append (.items [.atEnd])
  have source : Builder.source ⟨['^'], .sequence .empty (classNode chars negated times), ['$'], flags⟩ =
      ['^'] ++ (classNode chars negated times).render ++ ['$'] := by
    cases times <;> rfl
  rw [Builder.compile, source]
  refine exists_of_light whole gives (Nat.le_trans (Nat.le_of_eq flat) (Nat.zero_le _)) (fun piece member => ?_) known
  simp only [List.mem_cons, List.not_mem_nil, or_false] at member
  rcases member with rfl | rfl | rfl
  · exact Simple.atStart.light flags.mode
  · exact light_classRegex flags.mode signs
  · exact Simple.atEnd.light flags.mode

end Compiling

section Matching

variable {chars : Text} {step : Step} {accepts : Text → Prop}

theorem takes_classRegex {mode : Mode} (caseful : mode.ignoreCase = false) (negated : Bool) {word : Text}
    (sign : Repetition) (signs : sign.isSign) :
    (classRegex (classSet chars negated) (some sign)).Takes mode word ↔
      sign.bounds.least ≤ word.length ∧ (∀ most ∈ sign.bounds.most, word.length ≤ most) ∧
        ∀ c ∈ word, decide (c ∈ chars) != negated := by
  have straight : sign.bounds.reversed = false := by
    cases sign with
    | optional | oneOrMore | zeroOrMore => rfl
    | between | exactly => cases signs
  rw [classRegex, Words.takes_loop_char straight]
  simp only [contains_classSet caseful]

private theorem exists_class (kind : ClassStep chars step accepts) :
    ∃ negated times, (∀ sign ∈ times, Repetition.isSign sign) ∧
      (∀ builder : Builder, builder.apply step = .ok (builder.mapNode (.sequence · (classNode chars negated times)))) ∧
      ∀ mode : Mode, mode.ignoreCase = false → ∀ word,
        (classRegex (classSet chars negated) times).Takes mode word ↔ accepts word := by
  cases kind with
  | oneOf =>
    refine ⟨false, none, nofun, fun _ => rfl, fun mode caseful word => ?_⟩
    simp [classRegex, Words.takes_char, contains_classSet caseful, and_comm]
  | anyOf =>
    refine ⟨false, some .optional, by simp [Repetition.isSign], fun _ => rfl, fun mode caseful word => ?_⟩
    rw [takes_classRegex caseful false .optional rfl]
    match word with
    | [] | [c] | _ :: _ :: _ => simp [Repetition.bounds]
  | someOf =>
    refine ⟨false, some .oneOrMore, by simp [Repetition.isSign], fun _ => rfl, fun mode caseful word => ?_⟩
    rw [takes_classRegex caseful false .oneOrMore rfl]
    simp [Repetition.bounds, Nat.one_le_iff_ne_zero]
  | anythingBut isLazy =>
    refine ⟨true, some (.zeroOrMore (.ofLazy isLazy)), by simp [Repetition.isSign], fun _ => rfl,
      fun mode caseful word => ?_⟩
    rw [takes_classRegex caseful true (.zeroOrMore _) rfl]
    simp [Repetition.bounds]
  | somethingBut =>
    refine ⟨true, some .oneOrMore, by simp [Repetition.isSign], fun _ => rfl, fun mode caseful word => ?_⟩
    rw [takes_classRegex caseful true .oneOrMore rfl]
    simp [Repetition.bounds, Nat.one_le_iff_ne_zero]

/-- However the anchors and flags of a pattern come about that has one class step, if it is between both anchors and
neither ignores case nor matches line by line, it compiles and matches just the words of the step. -/
theorem class_steps_match (nonempty : chars ≠ []) (kind : ClassStep chars step accepts) {steps : List Step}
    (only : steps.filter (!·.isSetting) = [step]) :
    ∃ builder, Builder.empty.run steps = .ok builder ∧
      (builder.front = ['^'] → builder.back = ['$'] → builder.flags.error? = none →
        builder.flags.contains 'i' = false → builder.flags.contains 'm' = false →
        ∃ pattern, builder.compile = .ok pattern ∧ ∀ word, pattern.isMatch word ↔ accepts word) := by
  obtain ⟨negated, times, signs, applies, takes⟩ := exists_class kind
  have trees : (Builder.empty.run steps).map (·.node) = .ok (.sequence .empty (classNode chars negated times)) := by
    rw [StepRuns.map_node_run rfl, only, Builder.run, applies]
    rfl
  cases ran : Builder.empty.run steps with
  | error error =>
    rw [ran] at trees
    cases trees
  | ok builder =>
    rw [ran] at trees
    refine ⟨builder, rfl, fun front back known caseful single => ?_⟩
    obtain ⟨_, node, _, flags⟩ := builder
    obtain rfl : node = .sequence .empty (classNode chars negated times) := Except.ok.inj trees
    cases front
    cases back
    obtain ⟨pattern, compiles, regex, rfl⟩ := exists_pattern nonempty negated signs known
    refine ⟨pattern, compiles, fun word => ?_⟩
    have same : Regrouped pattern.regex (.seq .atStart (.seq (classRegex (classSet chars negated) times) .atEnd)) := by
      rw [regex]
      exact .seq (.refl _) (.seq (.refl _) (.seq_empty _))
    have steady : (classRegex (classSet chars negated) times).isSteady := by
      cases times <;> simp [classRegex, isSteady, minSize]
    rw [Pattern.isMatch_iff_takes same steady single]
    exact takes pattern.mode caseful word

/-- A line break is not one of the signs that mean something inside a class, and a hyphen is: `^[^\]\-\^\\\&]*?$`. -/
theorem class_steps_match_of_signs :
    let chars : Text := [']', '-', '^', '\\', '&']
    let steps := [Step.assertStart true, .anythingBut chars true, .assertEnd true, .removeFlags ['m']]
    ∃ builder pattern, Builder.empty.run steps = .ok builder ∧ builder.compile = .ok pattern ∧
      pattern.isMatch ['a', '\n'] ∧ pattern.isMatch ['a', '-'] = false := by
  intro chars steps
  obtain ⟨builder, ran, matching⟩ :=
    class_steps_match (by decide : chars ≠ []) (.anythingBut true) (rfl : steps.filter (!·.isSetting) = _)
  have built : builder = ⟨['^'], .anythingBut .empty chars true, ['$'], FlagSet.standard.difference ['m']⟩ :=
    (Except.ok.inj ran).symm
  obtain ⟨pattern, compiles, words⟩ :=
    matching (built ▸ rfl) (built ▸ rfl) (built ▸ by decide) (built ▸ by decide) (built ▸ by decide)
  refine ⟨builder, pattern, ran, compiles, (words _).mpr (by simp [chars]), ?_⟩
  exact Bool.eq_false_iff.mpr fun found => (words _).mp found '-' (by simp) (by simp [chars])

end Matching

end Proofs.ClassMatching
end FluentPattern
