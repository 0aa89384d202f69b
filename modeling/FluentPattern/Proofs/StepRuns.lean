import FluentPattern.Builder.Step
import Mathlib.Data.List.Basic

/-! Runs of steps. What a step does to one part of a builder depends on that part alone, so each part can be followed
through a run without the others. The anchors are those that were set last, and of the values that steps take only
the trees count. -/

namespace FluentPattern.Builder

/-- Whether a flat list of ranges gives each of its bounds a partner; the other steps ask for nothing. -/
def Step.IsPaired : Step → Prop
  | .flatRanges items _ => items.length % 2 = 0
  | _ => True

def Step.front? : Step → Option Text
  | .assertStart enable => some (if enable then ['^'] else [])
  | _ => none

/-- What a step writes after the tree: the anchor, if it sets one, and nothing, if it puts something at the end. -/
def Step.back? : Step → Option Text
  | .assertEnd enable => some (if enable then ['$'] else [])
  | .append _ | .maybe _ | .lineBreak | .tab | .word | .digit | .whitespace => some []
  | _ => none

def Step.isSetting : Step → Bool
  | .assertStart _ | .assertEnd _ => true
  | .addFlags _ | .removeFlags _ | .toggleFlag _ => true
  | .ignoreCase _ | .stopAtFirst _ | .findAll _ | .singleLine _ => true
  | _ => false

/-- Whether two steps differ at most in a value, and the values have the same tree. -/
inductive Step.Alike : Step → Step → Prop where
  | same (step) : Alike step step
  | append {one other} (trees : valueNode one = valueNode other) : Alike (.append one) (.append other)
  | maybe {one other} (trees : valueNode one = valueNode other) : Alike (.maybe one) (.maybe other)
  | orElse {one other} (trees : valueNode one = valueNode other) : Alike (.orElse one) (.orElse other)
  | followedBy {one other} (trees : valueNode one = valueNode other) : Alike (.followedBy one) (.followedBy other)
  | notFollowedBy {one other} (trees : valueNode one = valueNode other) :
      Alike (.notFollowedBy one) (.notFollowedBy other)

end FluentPattern.Builder

namespace FluentPattern.Proofs.StepRuns
open Builder

variable {builder next final : Builder} {step : Step} {steps : List Step}

theorem run_cons_eq_ok_iff :
    builder.run (step :: steps) = .ok final ↔ ∃ next, builder.apply step = .ok next ∧ next.run steps = .ok final := by
  rw [run]
  cases builder.apply step <;> simp

theorem apply_flatRanges_eq_ok_iff {items : List Text} {negated : Bool} :
    builder.apply (.flatRanges items negated) = .ok next ↔
      items.length % 2 = 0 ∧ next = builder.mapNode (·.ranges (Node.pairUp items) negated) := by
  simp only [apply, Node.rangePairs]
  by_cases odd : items.length % 2 = 1
  · simp [odd]
  · have even : items.length % 2 = 0 := by omega
    simp [even, eq_comm]

theorem exists_apply_iff (builder : Builder) (step : Step) :
    (∃ next, builder.apply step = .ok next) ↔ step.IsPaired := by
  cases step with
  | flatRanges items negated => simp [apply_flatRanges_eq_ok_iff, Step.IsPaired]
  | _ => simp [apply, Step.IsPaired]

/-- A run fails only at a flat list of ranges whose last one lacks its end. -/
theorem exists_run_iff (builder : Builder) (steps : List Step) :
    (∃ final, builder.run steps = .ok final) ↔ ∀ step ∈ steps, step.IsPaired := by
  induction steps generalizing builder with
  | nil => simp [run]
  | cons step steps ih =>
    rw [List.forall_mem_cons, ← exists_apply_iff builder]
    simp only [run_cons_eq_ok_iff]
    constructor
    · rintro ⟨final, next, taken, rest⟩
      exact ⟨⟨next, taken⟩, (ih next).mp ⟨final, rest⟩⟩
    · rintro ⟨⟨next, taken⟩, paired⟩
      obtain ⟨final, rest⟩ := (ih next).mpr paired
      exact ⟨final, next, taken, rest⟩

/-- A part that each step changes on its own is changed by a run step after step. -/
theorem part_of_run {α : Type} (part : Builder → α) (change : Step → α → α)
    (taken : ∀ {builder next : Builder} {step : Step},
      builder.apply step = .ok next → part next = change step (part builder))
    (ran : builder.run steps = .ok final) :
    part final = steps.foldl (fun value step => change step value) (part builder) := by
  induction steps generalizing builder with
  | nil =>
    cases ran
    rfl
  | cons step steps ih =>
    obtain ⟨next, first, rest⟩ := run_cons_eq_ok_iff.mp ran
    rw [ih rest, taken first, List.foldl_cons]

theorem front_of_apply (taken : builder.apply step = .ok next) : next.front = step.front?.getD builder.front := by
  cases step with
  | flatRanges items negated =>
    obtain ⟨-, rfl⟩ := apply_flatRanges_eq_ok_iff.mp taken
    rfl
  | _ => cases taken; rfl

theorem back_of_apply (taken : builder.apply step = .ok next) : next.back = step.back?.getD builder.back := by
  cases step with
  | flatRanges items negated =>
    obtain ⟨-, rfl⟩ := apply_flatRanges_eq_ok_iff.mp taken
    rfl
  | _ => cases taken; rfl

private theorem foldl_getD {α : Type} (written : Step → Option α) (start : α) :
    steps.foldl (fun value step => (written step).getD value) start =
      ((steps.filterMap written).getLast?).getD start := by
  induction steps generalizing start with
  | nil => rfl
  | cons step steps ih =>
    rw [List.foldl_cons, ih, List.filterMap_cons]
    cases written step with
    | none => rfl
    | some value => simp [List.getLast?_cons]

theorem node_of_isSetting (setting : step.isSetting) (taken : builder.apply step = .ok next) :
    next.node = builder.node := by
  cases step with
  | assertStart | assertEnd | addFlags | removeFlags | toggleFlag | ignoreCase | stopAtFirst | findAll | singleLine =>
    cases taken
    rfl
  | _ => cases setting

private theorem isPaired_of_isSetting (setting : step.isSetting) : step.IsPaired := by
  cases step with
  | flatRanges => cases setting
  | _ => trivial

private theorem map_node_apply {one other : Builder} (trees : one.node = other.node) (step : Step) :
    (one.apply step).map (·.node) = (other.apply step).map (·.node) := by
  cases step with
  | flatRanges items negated =>
    simp only [apply]
    cases Node.rangePairs items <;> simp [mapNode, Except.map, trees]
  | _ => simp [apply, mapNode, extend, setFlag, Except.map, trees]

/-- Without the steps that are about anchors or flags, a run comes to the same tree. -/
theorem map_node_run {one other : Builder} (trees : one.node = other.node) (steps : List Step) :
    (one.run steps).map (·.node) = (other.run (steps.filter (!·.isSetting))).map (·.node) := by
  induction steps generalizing one other with
  | nil => simpa [run, Except.map] using trees
  | cons step steps ih =>
    cases setting : step.isSetting with
    | true =>
      obtain ⟨next, taken⟩ := (exists_apply_iff one step).mpr (isPaired_of_isSetting setting)
      have kept : next.node = other.node := (node_of_isSetting setting taken).trans trees
      rw [List.filter_cons_of_neg (by simp [setting]), run, taken]
      exact ih kept
    | false =>
      have same := map_node_apply trees step
      rw [List.filter_cons_of_pos (by simp [setting]), run, run]
      cases first : one.apply step with
      | ok next =>
        cases second : other.apply step with
        | ok next' =>
          rw [first, second] at same
          exact ih (Except.ok.inj same)
        | error error => rw [first, second] at same; cases same
      | error error =>
        cases second : other.apply step with
        | ok next' => rw [first, second] at same; cases same
        | error error' =>
          rw [first, second] at same
          exact congrArg Except.error (Except.error.inj same)

theorem exists_run_of_filter (taken : builder.run (steps.filter (!·.isSetting)) = .ok next) :
    ∃ final, builder.run steps = .ok final ∧ final.node = next.node := by
  have trees : (builder.run steps).map (·.node) = .ok next.node := by
    rw [map_node_run rfl, taken]
    rfl
  cases ran : builder.run steps with
  | error error =>
    rw [ran] at trees
    cases trees
  | ok final =>
    rw [ran] at trees
    exact ⟨final, rfl, Except.ok.inj trees⟩

theorem exists_run_of_only (only : steps.filter (!·.isSetting) = [step]) (taken : builder.apply step = .ok next) :
    ∃ final, builder.run steps = .ok final ∧ final.node = next.node := by
  apply exists_run_of_filter
  rw [only, run, taken]
  rfl

theorem eq_of_only (only : steps.filter (!·.isSetting) = [step]) {other : Step} (member : other ∈ steps)
    (kind : other.isSetting = false) : other = step := by
  have kept : other ∈ steps.filter (!·.isSetting) := List.mem_filter.mpr ⟨member, by simp [kind]⟩
  rw [only] at kept
  exact List.mem_singleton.mp kept

private theorem apply_eq_of_alike {other : Step} (alike : step.Alike other) (builder : Builder) :
    builder.apply other = builder.apply step := by
  cases alike with
  | same => rfl
  | append trees | maybe trees | orElse trees | followedBy trees | notFollowedBy trees => simp only [apply, trees]

/-- Of the values that the steps of a run take, only the trees count. -/
theorem run_eq_of_alike {others : List Step} (alike : List.Forall₂ Step.Alike steps others) (builder : Builder) :
    builder.run others = builder.run steps := by
  induction alike generalizing builder with
  | nil => rfl
  | cons first _ ih => simp only [run, apply_eq_of_alike first, ih]

/-- A run that gives each range its end succeeds, and only such a run does. The anchors at its end are those that
were written last, or else those of the start; the steps about anchors and flags make no difference to the tree, and
the anchors and flags of the values make no difference at all. -/
theorem anchors_follow_steps (start : Builder) (steps : List Step) :
    ((∃ final, start.run steps = .ok final) ↔ ∀ step ∈ steps, step.IsPaired) ∧
    (∀ final, start.run steps = .ok final →
      final.front = ((steps.filterMap Step.front?).getLast?).getD start.front ∧
      final.back = ((steps.filterMap Step.back?).getLast?).getD start.back) ∧
    (start.run steps).map (·.node) = (start.run (steps.filter (!·.isSetting))).map (·.node) ∧
    ∀ others, List.Forall₂ Step.Alike steps others → start.run others = start.run steps := by
  refine ⟨exists_run_iff start steps, fun final ran => ⟨?_, ?_⟩, map_node_run rfl steps,
    fun others alike => run_eq_of_alike alike start⟩
  · rw [part_of_run (·.front) (fun step text => step.front?.getD text) front_of_apply ran, foldl_getD]
  · rw [part_of_run (·.back) (fun step text => step.back?.getD text) back_of_apply ran, foldl_getD]

/-- An anchored value with flags of its own, put after an anchored text. -/
theorem anchors_follow_steps_of_anchored :
    let anchored : Builder := ⟨['^'], .literal ['b'], ['$'], .ofText ['i']⟩
    let steps := [Step.assertEnd true, .assertStart true, .append (.builder anchored), .addFlags ['s']]
    let others := [Step.assertEnd true, .assertStart true, .append (.text ['b']), .addFlags ['s']]
    List.Forall₂ Step.Alike steps others ∧
      ∃ final, (of (.text ['a'])).run steps = .ok final ∧ final.front = ['^'] ∧ final.back = [] ∧
        (of (.text ['a'])).run others = .ok final := by
  intro anchored steps others
  have alike : List.Forall₂ Step.Alike steps others :=
    .cons (.same _) (.cons (.same _) (.cons (.append rfl) (.cons (.same _) .nil)))
  obtain ⟨succeeds, written, -, values⟩ := anchors_follow_steps (of (.text ['a'])) steps
  obtain ⟨final, ran⟩ := succeeds.mpr (by simp [steps, Step.IsPaired])
  obtain ⟨front, back⟩ := written final ran
  exact ⟨alike, final, ran, front, back, (values others alike).trans ran⟩

end FluentPattern.Proofs.StepRuns
