import FluentPattern.Proofs.Compiling
import FluentPattern.Proofs.StepRuns
import Mathlib.Data.List.Sort

/-! Flags through runs of steps. A set of flags is an ascending list of letters; the steps that change it are told
here letter by letter, on a plain table of which letters are set, and the table and the set go side by side through
any run. The set is then the one list of the letters in the table, so nothing about how it came to be is left in it. -/

namespace FluentPattern.Builder

def updateAll (letters : Text) (value : Bool → Bool) (isSet : Char → Bool) (c : Char) : Bool :=
  if c ∈ letters then value (isSet c) else isSet c

/-- What a flag step does to the table of the letters that are set. All other steps have nothing to do with it. -/
def Step.flagChange? : Step → Option ((Char → Bool) → Char → Bool)
  | .addFlags letters => some (updateAll letters fun _ => true)
  | .removeFlags letters => some (updateAll letters fun _ => false)
  | .toggleFlag letter => some (updateAll [letter] fun isSet => !isSet)
  | .ignoreCase enable => some (updateAll ['i'] fun _ => enable)
  | .stopAtFirst enable => some (updateAll ['g'] fun _ => !enable)
  | .findAll enable => some (updateAll ['g'] fun _ => enable)
  | .singleLine enable => some (updateAll ['m'] fun _ => !enable)
  | _ => none

/-- The table after the flag steps of a run, which are taken alone. -/
def flagsAfter (steps : List Step) (isSet : Char → Bool) : Char → Bool :=
  (steps.filterMap Step.flagChange?).foldl (fun isSet change => change isSet) isSet

end FluentPattern.Builder

namespace FluentPattern

namespace FlagSet

theorem contains_set (flags : FlagSet) (letter : Char) (present : Bool) :
    (flags.set letter present).contains = Builder.updateAll [letter] (fun _ => present) flags.contains := by
  funext c
  cases present with
  | true => by_cases same : c = letter <;> simp [set, contains_union, Builder.updateAll, same]
  | false => by_cases same : c = letter <;> simp [set, contains_difference, Builder.updateAll, same]

theorem eq_iff_contains {one other : FlagSet} : one = other ↔ ∀ c, one.contains c = other.contains c := by
  refine ⟨fun same c => same ▸ rfl, fun same => ?_⟩
  obtain ⟨letters, ascending⟩ := one
  obtain ⟨letters', ascending'⟩ := other
  have members : ∀ c, c ∈ letters ↔ c ∈ letters' := by simpa [contains] using same
  obtain rfl := ascending.eq_of_mem_iff ascending' members
  rfl

end FlagSet

namespace Proofs.FlagRuns
open Builder

variable {builder next final : Builder} {step : Step}

theorem contains_of_apply (taken : builder.apply step = .ok next) :
    next.flags.contains = (step.flagChange?.getD id) builder.flags.contains := by
  cases step with
  | addFlags letters =>
    cases taken
    funext c
    by_cases listed : c ∈ letters <;> simp [FlagSet.contains_union, Step.flagChange?, updateAll, listed]
  | removeFlags letters =>
    cases taken
    funext c
    by_cases listed : c ∈ letters <;> simp [FlagSet.contains_difference, Step.flagChange?, updateAll, listed]
  | toggleFlag letter =>
    cases taken
    funext c
    have whole := congrFun (builder.flags.contains_set letter (!builder.flags.contains letter)) c
    rw [setFlag, whole]
    by_cases same : c = letter <;> simp [Step.flagChange?, updateAll, same]
  | ignoreCase enable | stopAtFirst enable | findAll enable | singleLine enable =>
    cases taken
    exact FlagSet.contains_set ..
  | flatRanges items negated =>
    obtain ⟨-, rfl⟩ := StepRuns.apply_flatRanges_eq_ok_iff.mp taken
    rfl
  | _ => cases taken; rfl

theorem contains_of_run {steps : List Step} (ran : builder.run steps = .ok final) :
    final.flags.contains = flagsAfter steps builder.flags.contains := by
  have followed := StepRuns.part_of_run (fun builder => builder.flags.contains)
    (fun step => step.flagChange?.getD id) contains_of_apply ran
  rw [followed, flagsAfter, List.foldl_filterMap]
  congr
  funext isSet step
  cases step.flagChange? <;> rfl

/-- The flags at the end of a run are those that its flag steps leave when they are taken alone, on the plain table of
the letters that are set at the start. They are written in ascending order, and a pattern that is compiled then has
the same ones. The text of a set tells the set, and gives it back. -/
theorem flags_follow_steps (start : Builder) (steps : List Step) :
    ((∃ final, start.run steps = .ok final) ↔ ∀ step ∈ steps, step.IsPaired) ∧
    (∀ final, start.run steps = .ok final →
      (∀ c, final.flags.contains c = flagsAfter steps start.flags.contains c) ∧
      final.flags.letters.Pairwise (·.toNat < ·.toNat) ∧
      (∀ c, c ∈ final.flags.letters ↔ flagsAfter steps start.flags.contains c) ∧
      ∀ pattern, final.compile = .ok pattern →
        pattern.flags.letters = final.flags.letters ∧
        (∀ c, pattern.flags.contains c = final.flags.contains c) ∧
        pattern.isGlobal = final.flags.contains 'g') ∧
    ∀ flags : FlagSet, FlagSet.ofText flags.letters = flags ∧ ∀ other : FlagSet,
      (flags = other ↔ flags.letters = other.letters) ∧
      (flags = other ↔ ∀ c, flags.contains c = other.contains c) := by
  refine ⟨StepRuns.exists_run_iff start steps, fun final ran => ?_, fun flags => ?_⟩
  · have table := contains_of_run ran
    refine ⟨congrFun table, final.flags.ascending, fun c => ?_, fun pattern compiled => ?_⟩
    · rw [← table]
      simp [FlagSet.contains]
    · have same : pattern.flags = final.flags :=
        (Pattern.compile_eq_ok_iff.mp compiled).2.trans (FlagSet.ofText_letters final.flags)
      exact ⟨by rw [same], fun c => by rw [same], by rw [Pattern.isGlobal, same]⟩
  · refine ⟨FlagSet.ofText_letters flags, fun other =>
      ⟨⟨fun same => same ▸ rfl, fun same => ?_⟩, FlagSet.eq_iff_contains⟩⟩
    rw [← FlagSet.ofText_letters flags, same, FlagSet.ofText_letters]

/-- Switches that say the same letter in both ways, and a value with a flag of its own between them. -/
theorem flags_follow_steps_of_switches :
    let value : Value := .builder ⟨['^'], .literal ['b'], [], .ofText ['i']⟩
    let steps := [Step.addFlags ['u', 's'], .append value, .toggleFlag 'g', .oneOrMore, .stopAtFirst false,
      .singleLine true]
    ∃ final pattern, (of (.text ['a'])).run steps = .ok final ∧ final.compile = .ok pattern ∧
      pattern.flags.letters = ['g', 's', 'u'] ∧ pattern.flags.contains 'i' = false ∧ pattern.isGlobal := by
  intro value steps
  obtain ⟨succeeds, followed, -⟩ := flags_follow_steps (of (.text ['a'])) steps
  obtain ⟨final, ran⟩ := succeeds.mpr (by simp [steps, Step.IsPaired])
  obtain ⟨table, -, -, compiled⟩ := followed final ran
  have built : final = ⟨[], ((Node.literal ['a']).append (.literal ['b'])).oneOrMore, [], .ofText ['g', 's', 'u']⟩ :=
    (Except.ok.inj ran).symm
  obtain ⟨pattern, compiles⟩ : ∃ pattern, final.compile = .ok pattern := built ▸ ⟨_, rfl⟩
  obtain ⟨letters, contains, global⟩ := compiled pattern compiles
  refine ⟨final, pattern, ran, compiles, ?_, ?_, ?_⟩
  · rw [letters, built]
    rfl
  · rw [contains, table]
    rfl
  · rw [global, table]
    rfl

end Proofs.FlagRuns
end FluentPattern
