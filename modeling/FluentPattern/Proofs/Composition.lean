import FluentPattern.Proofs.StepRuns

/-! Builders put together. The empty tree is the unit of sequences, so a list of values makes the tree that its values
make one by one, and values without a tree may stand anywhere in a list. Builders that are put together in another
nesting have different trees, but nothing of the nesting is written: a group is put only around a choice in a sequence
or between anchors, and which trees are choices does not depend on the nesting. -/

namespace FluentPattern

namespace Node

variable {first second third : Node}

theorem isEmpty_eq (node : Node) : node.isEmpty = decide (node = .empty) := by cases node <;> simp [isEmpty]

@[simp] theorem empty_append (node : Node) : append .empty node = node := rfl

@[simp] theorem append_empty (node : Node) : append node .empty = node := by cases node <;> rfl

theorem append_of_ne (left : first ≠ .empty) (right : second ≠ .empty) :
    first.append second = .sequence first second := by
  unfold append
  split
  next => exact absurd rfl left
  next => exact absurd rfl right
  next => rfl

theorem orElse_of_ne (either : first ≠ .empty ∨ second ≠ .empty) : first.orElse second = .choice first second := by
  unfold orElse
  split
  next => simp at either
  next => rfl

section Lists

variable {nodes others rest : List Node}

private theorem foldl_eq_of_agree {one other : Node → Node → Node}
    (agree : ∀ {first second}, first ≠ .empty → second ≠ .empty → one first second = other first second)
    (solid : ∀ first second, other first second ≠ .empty) (left : first ≠ .empty)
    (right : ∀ node ∈ rest, node ≠ .empty) :
    rest.foldl one first = rest.foldl other first := by
  induction rest generalizing first with
  | nil => rfl
  | cons node rest ih =>
    obtain ⟨next, later⟩ := List.forall_mem_cons.mp right
    rw [List.foldl_cons, List.foldl_cons, agree left next]
    exact ih (solid first node) later

private theorem foldl_append_filter (first : Node) (nodes : List Node) :
    (nodes.filter (!·.isEmpty)).foldl append first = nodes.foldl append first := by
  rw [List.foldl_filter]
  congr
  funext before node
  by_cases none : node = .empty <;> simp [isEmpty_eq, none]

/-- Leaving the empty trees out before the others are joined is the same as putting every tree behind what there is. -/
theorem sequenceAll_eq_foldl (nodes : List Node) : sequenceAll nodes = nodes.foldl append .empty := by
  have solid : ∀ node ∈ nodes.filter (!·.isEmpty), node ≠ .empty := by
    intro node member
    simpa [isEmpty_eq] using (List.mem_filter.mp member).2
  rw [← foldl_append_filter, sequenceAll, joinAll]
  split
  next none => rw [none]; rfl
  next first rest pieces =>
    rw [pieces] at solid ⊢
    obtain ⟨left, right⟩ := List.forall_mem_cons.mp solid
    exact (foldl_eq_of_agree append_of_ne nofun left right).symm

theorem choiceAll_eq_foldl (solid : ∀ node ∈ first :: rest, node ≠ .empty) :
    choiceAll (first :: rest) = rest.foldl orElse first := by
  have all : (first :: rest).filter (!·.isEmpty) = first :: rest := by
    rw [List.filter_eq_self]
    intro node member
    simp [isEmpty_eq, solid node member]
  obtain ⟨left, right⟩ := List.forall_mem_cons.mp solid
  rw [choiceAll, joinAll, all]
  exact (foldl_eq_of_agree (fun some _ => orElse_of_ne (.inl some)) nofun left right).symm

theorem joinAll_eq_of_filter {join : Node → Node → Node}
    (same : nodes.filter (!·.isEmpty) = others.filter (!·.isEmpty)) : joinAll join nodes = joinAll join others := by
  rw [joinAll, joinAll, same]

end Lists

/-- Whether two trees, which need not be the same, are written alike between any anchors. -/
structure WrittenAlike (one other : Node) : Prop where
  text : one.render = other.render
  isEmpty : one.isEmpty = other.isEmpty
  isChoice : one.isChoice = other.isChoice

theorem WrittenAlike.refl (node : Node) : WrittenAlike node node := ⟨rfl, rfl, rfl⟩

/-- A sequence is no choice, so it is written without a group inside of another sequence, on either side. -/
theorem append_assoc (first second third : Node) :
    WrittenAlike ((first.append second).append third) (first.append (second.append third)) := by
  by_cases none : first = .empty ∨ second = .empty ∨ third = .empty
  · have same : (first.append second).append third = first.append (second.append third) := by
      rcases none with rfl | rfl | rfl <;> simp
    rw [same]
    exact .refl _
  · simp only [not_or] at none
    obtain ⟨left, middle, right⟩ := none
    have solid : ∀ first second, Node.sequence first second ≠ .empty := nofun
    rw [append_of_ne left middle, append_of_ne middle right, append_of_ne (solid _ _) right,
      append_of_ne left (solid _ _)]
    exact ⟨by simp [render, isChoice], rfl, rfl⟩

/-- A choice is written without a group inside of another choice. A middle piece that is empty could be lost with the
last one, where that is empty as well. -/
theorem orElse_assoc (first third : Node) (middle : second ≠ .empty) :
    WrittenAlike ((first.orElse second).orElse third) (first.orElse (second.orElse third)) := by
  have solid : ∀ first second, Node.choice first second ≠ .empty := nofun
  rw [orElse_of_ne (.inr middle), orElse_of_ne (.inl middle), orElse_of_ne (.inl (solid _ _)),
    orElse_of_ne (.inr (solid _ _))]
  exact ⟨by simp [render], rfl, rfl⟩

/-- Of two empty trees at the end, the inner nesting loses one. -/
example :
    (((Node.literal ['a']).orElse .empty).orElse .empty).render = ['a', '|', '|'] ∧
      ((Node.literal ['a']).orElse (Node.empty.orElse .empty)).render = ['a', '|'] := by
  decide

end Node

namespace Builder

/-- Whether a value has a tree, which need not have a text. -/
def Value.HasTree (value : Value) : Prop := (of value).node ≠ .empty

instance : DecidablePred Value.HasTree := fun value => inferInstanceAs (Decidable ((of value).node ≠ .empty))

theorem source_eq_of_alike {one other : Builder} (front : one.front = other.front) (back : one.back = other.back)
    (trees : Node.WrittenAlike one.node other.node) : one.source = other.source := by
  unfold source isAnchored
  rw [front, back, trees.text, trees.isEmpty, trees.isChoice]

end Builder

namespace Proofs.Composition
open Builder

private theorem run_append (builder : Builder) (unanchored : builder.back = []) (values : List Value) :
    builder.run (values.map .append) =
      .ok { builder with node := (values.map valueNode).foldl .append builder.node } := by
  induction values generalizing builder with
  | nil => rfl
  | cons value values ih =>
    refine StepRuns.run_cons_eq_ok_iff.mpr ⟨_, rfl, ?_⟩
    have back : (builder.extend (·.append (valueNode value))).back = builder.back := unanchored.symm
    rw [ih _ rfl, back]
    rfl

private theorem run_orElse (builder : Builder) (values : List Value) :
    builder.run (values.map .orElse) =
      .ok { builder with node := (values.map valueNode).foldl .orElse builder.node } := by
  induction values generalizing builder with
  | nil => rfl
  | cons value values ih =>
    refine StepRuns.run_cons_eq_ok_iff.mpr ⟨_, rfl, ?_⟩
    rw [ih]
    rfl

private theorem trees_of_filter {values others : List Value}
    (same : values.filter (·.HasTree) = others.filter (·.HasTree)) :
    (values.map valueNode).filter (!·.isEmpty) = (others.map valueNode).filter (!·.isEmpty) := by
  have kept : (!·.isEmpty) ∘ valueNode = fun value => decide value.HasTree := by
    funext value
    rw [Function.comp_apply, Node.isEmpty_eq]
    exact decide_not.symm
  rw [List.filter_map, List.filter_map, kept, same]

/-- A list of values in order is the builder that comes of putting them behind nothing one by one. Values without a tree
make no difference to a list, wherever they stand in it; and if all values have a tree, the choice among them has the
tree that comes of the first one by adding the others one by one. -/
theorem lists_follow_steps (values : List Value) :
    Builder.empty.run (values.map .append) = .ok (inOrder values) ∧
    (∀ others, values.filter (·.HasTree) = others.filter (·.HasTree) →
      inOrder values = inOrder others ∧ anyOfAll values = anyOfAll others) ∧
    ∀ first rest, values = first :: rest → (∀ value ∈ values, value.HasTree) →
      ∃ final, (of first).run (rest.map .orElse) = .ok final ∧ final.node = (anyOfAll values).node := by
  refine ⟨?_, fun others same => ?_, ?_⟩
  · rw [run_append _ rfl, inOrder, Node.sequenceAll_eq_foldl]
    rfl
  · have trees := trees_of_filter same
    exact ⟨congrArg ofNode (Node.joinAll_eq_of_filter trees), congrArg ofNode (Node.joinAll_eq_of_filter trees)⟩
  · rintro first rest rfl solid
    refine ⟨_, run_orElse (of first) rest, ?_⟩
    have trees : ∀ node ∈ valueNode first :: rest.map valueNode, node ≠ .empty := by
      rwa [← List.map_cons, List.forall_mem_map]
    exact (Node.choiceAll_eq_foldl trees).symm

/-- A value without a tree before, between and behind others, of which one has a tree that is written as nothing. -/
theorem lists_follow_steps_of_blanks :
    let blank : Value := .builder ⟨['^'], .empty, ['$'], .ofText ['i']⟩
    let values : List Value := [.text [], .builder ⟨['^'], .orElse (.literal ['b']) .empty, ['$'], .empty⟩, .text ['c']]
    let others := blank :: values.flatMap fun value => [value, blank]
    values.filter (·.HasTree) = others.filter (·.HasTree) ∧ (∀ value ∈ values, value.HasTree) ∧
      inOrder values = inOrder others ∧ anyOfAll values = anyOfAll others ∧
      (Builder.empty.run (others.map .append)).map (·.source) = .ok ['(', '?', ':', 'b', '|', ')', 'c'] ∧
      ∃ final, (of (.text [])).run ((values.drop 1).map .orElse) = .ok final ∧
        final.source = ['|', 'b', '|', '|', 'c'] := by
  intro blank values others
  have same : values.filter (·.HasTree) = others.filter (·.HasTree) := rfl
  have solid : ∀ value ∈ values, value.HasTree := by decide
  obtain ⟨-, equal, choices⟩ := lists_follow_steps values
  obtain ⟨sequence, choice⟩ := equal others same
  obtain ⟨final, ran, -⟩ := choices _ _ rfl solid
  refine ⟨same, solid, sequence, choice, ?_, final, ran, ?_⟩
  · rw [(lists_follow_steps others).1, ← sequence]
    rfl
  · cases ran
    rfl

/-- The nesting in which builders are put one behind the other is not written, and neither is that of choices, as long
as the middle one has a tree. Putting nothing behind a builder drops its anchor at the end and changes nothing else; a
value that may come next is put behind as the optional tree that it is. -/
theorem nesting_not_written (first second third : Builder) :
    (∃ stepwise inner nested,
      first.run [.append (.builder second), .append (.builder third)] = .ok stepwise ∧
      second.apply (.append (.builder third)) = .ok inner ∧ first.apply (.append (.builder inner)) = .ok nested ∧
      stepwise.source = nested.source ∧ stepwise.flags = nested.flags) ∧
    first.apply (.append (.builder .empty)) = .ok { first with back := [] } ∧
    (∀ optional : Builder, optional.node = second.node.optional →
      first.apply (.maybe (.builder second)) = first.apply (.append (.builder optional))) ∧
    (second.node ≠ .empty → ∃ stepwise inner nested,
      first.run [.orElse (.builder second), .orElse (.builder third)] = .ok stepwise ∧
      second.apply (.orElse (.builder third)) = .ok inner ∧ first.apply (.orElse (.builder inner)) = .ok nested ∧
      stepwise.source = nested.source ∧ stepwise.flags = nested.flags) := by
  refine ⟨⟨_, _, _, rfl, rfl, rfl, ?_, rfl⟩, ?_, fun optional tree => ?_,
    fun middle => ⟨_, _, _, rfl, rfl, rfl, ?_, rfl⟩⟩
  · exact source_eq_of_alike rfl rfl (Node.append_assoc first.node second.node third.node)
  · have nothing : valueNode (.builder .empty) = .empty := rfl
    simp [apply, extend, mapNode, nothing]
  · simp only [apply, valueNode, of, tree]
    rfl
  · exact source_eq_of_alike rfl rfl (Node.orElse_assoc first.node third.node middle)

/-- Choices between anchors, of which the first one and the last one are empty. -/
theorem nesting_not_written_of_choices :
    let anchored : Builder := ⟨['^'], .empty, ['$'], .ofText ['i']⟩
    let letter := of (.text ['b'])
    letter.node ≠ .empty ∧ ∃ stepwise inner nested,
      anchored.run [.orElse (.builder letter), .orElse (.builder .empty)] = .ok stepwise ∧
      letter.apply (.orElse (.builder .empty)) = .ok inner ∧ anchored.apply (.orElse (.builder inner)) = .ok nested ∧
      stepwise ≠ nested ∧ stepwise.source = ['^', '(', '?', ':', '|', 'b', '|', ')', '$'] ∧
      nested.source = stepwise.source := by
  intro anchored letter
  have middle : letter.node ≠ .empty := nofun
  obtain ⟨-, -, -, choices⟩ := nesting_not_written anchored letter .empty
  obtain ⟨stepwise, inner, nested, ran, within, around, same, -⟩ := choices middle
  refine ⟨middle, stepwise, inner, nested, ran, within, around, ?_, ?_, same.symm⟩
  · cases ran
    cases within
    cases around
    decide
  · cases ran
    rfl

end Proofs.Composition
end FluentPattern
