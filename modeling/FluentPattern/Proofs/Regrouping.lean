import FluentPattern.Regex

/-! Groups that capture nothing leave no trace in the text around them, so the same pattern text can stand for trees
that differ in how sequences and alternations are nested. Regexes that differ in nothing else are regroupings of each
other, and each has a flattened form, in which no nesting is left that a text does not need. -/

namespace FluentPattern.Regex

/-- Two regexes that differ only in how sequences and alternations are put together from the same parts in the same
order, and in empty parts of sequences. -/
inductive Regrouped : Regex → Regex → Prop where
  | refl (regex) : Regrouped regex regex
  | symm {first second} (same : Regrouped first second) : Regrouped second first
  | trans {first second third} (one : Regrouped first second) (other : Regrouped second third) : Regrouped first third
  | seq_assoc (first second third) : Regrouped (.seq (.seq first second) third) (.seq first (.seq second third))
  | empty_seq (regex) : Regrouped (.seq .empty regex) regex
  | seq_empty (regex) : Regrouped (.seq regex .empty) regex
  | alt_assoc (first second third) : Regrouped (.alt (.alt first second) third) (.alt first (.alt second third))
  | seq {first second first' second'} (one : Regrouped first first') (other : Regrouped second second') :
      Regrouped (.seq first second) (.seq first' second')
  | alt {first second first' second'} (one : Regrouped first first') (other : Regrouped second second') :
      Regrouped (.alt first second) (.alt first' second')
  | loop {body body'} (same : Regrouped body body') (bounds greed) :
      Regrouped (.loop body bounds greed) (.loop body' bounds greed)
  | look {body body'} (positive) (same : Regrouped body body') : Regrouped (.look positive body) (.look positive body')
  | capture {body body'} (name) (same : Regrouped body body') : Regrouped (.capture name body) (.capture name body')
  | commit {body body'} (same : Regrouped body body') : Regrouped (.commit body) (.commit body')

/-- Regroupings of which only the sequences at the top are put together in another way. -/
inductive Resequenced : Regex → Regex → Prop where
  | refl (regex) : Resequenced regex regex
  | symm {first second} (same : Resequenced first second) : Resequenced second first
  | trans {first second third} (one : Resequenced first second) (other : Resequenced second third) :
      Resequenced first third
  | seq_assoc (first second third) : Resequenced (.seq (.seq first second) third) (.seq first (.seq second third))
  | empty_seq (regex) : Resequenced (.seq .empty regex) regex
  | seq_empty (regex) : Resequenced (.seq regex .empty) regex
  | seq {first second first' second'} (one : Resequenced first first') (other : Resequenced second second') :
      Resequenced (.seq first second) (.seq first' second')

namespace Resequenced

variable {one other : Regex}

theorem regrouped (same : Resequenced one other) : Regrouped one other := by
  induction same with
  | refl => exact .refl _
  | symm _ ih => exact .symm ih
  | trans _ _ ih ih' => exact .trans ih ih'
  | seq_assoc => exact .seq_assoc ..
  | empty_seq => exact .empty_seq _
  | seq_empty => exact .seq_empty _
  | seq _ _ ih ih' => exact .seq ih ih'

/-- Whatever a sequence has from its pieces alone, joined in order, does not depend on how they are put together. -/
theorem measure_eq {α : Type} (same : Resequenced one other) {measure : Regex → α} (join : α → α → α)
    (seq : ∀ first second, measure (.seq first second) = join (measure first) (measure second))
    (assoc : ∀ first second third, join (join first second) third = join first (join second third))
    (empty_join : ∀ value, join (measure .empty) value = value)
    (join_empty : ∀ value, join value (measure .empty) = value) : measure one = measure other := by
  induction same with
  | refl => rfl
  | symm _ ih => exact ih.symm
  | trans _ _ ih ih' => exact ih.trans ih'
  | seq_assoc => simp only [seq, assoc]
  | empty_seq => rw [seq, empty_join]
  | seq_empty => rw [seq, join_empty]
  | seq _ _ ih ih' => rw [seq, seq, ih, ih']

theorem chain_append (first second : List Regex) :
    Resequenced (chain (first ++ second)) (.seq (chain first) (chain second)) := by
  induction first with
  | nil => exact .symm (.empty_seq _)
  | cons regex first ih => exact .trans (.seq (.refl regex) ih) (.symm (.seq_assoc _ _ _))

theorem seqAll_chain (regexes : List Regex) : Resequenced (seqAll regexes) (chain regexes) := by
  unfold seqAll
  split
  · exact .symm (.seq_empty _)
  · exact .refl _

end Resequenced

def ofLayout (branches : List (List Regex)) : Regex := altAll (branches.map seqAll)

/-- What some branches are in a sequence: a single branch is a part of it, several need a group around them. -/
def inSequence : List (List Regex) → List Regex
  | [pieces] => pieces
  | branches => [ofLayout branches]

def layout : Regex → List (List Regex)
  | .empty => [[]]
  | .char set => [[.char set]]
  | .atStart => [[.atStart]]
  | .atEnd => [[.atEnd]]
  | .seq first second => [inSequence first.layout ++ inSequence second.layout]
  | .alt first second => first.layout ++ second.layout
  | .loop body bounds greed => [[.loop (ofLayout body.layout) bounds greed]]
  | .look positive body => [[.look positive (ofLayout body.layout)]]
  | .capture name body => [[.capture name (ofLayout body.layout)]]
  | .commit body => [[.commit (ofLayout body.layout)]]

/-- The form of a regex that its text is read as. -/
def flatten (regex : Regex) : Regex := ofLayout regex.layout

theorem layout_ne_nil (regex : Regex) : regex.layout ≠ [] := by
  cases regex with
  | alt first second => simp [layout, layout_ne_nil first]
  | _ => simp [layout]

theorem inSequence_of_ne {branches : List (List Regex)} (several : branches.length ≠ 1) :
    inSequence branches = [ofLayout branches] := by
  unfold inSequence
  split
  · simp at several
  · rfl

namespace Regrouped

theorem chain_append (first second : List Regex) :
    Regrouped (chain (first ++ second)) (.seq (chain first) (chain second)) :=
  (Resequenced.chain_append first second).regrouped

theorem seqAll_chain (regexes : List Regex) : Regrouped (seqAll regexes) (chain regexes) :=
  (Resequenced.seqAll_chain regexes).regrouped

theorem altAll_append {first second : List Regex} (one : first ≠ []) (other : second ≠ []) :
    Regrouped (altAll (first ++ second)) (.alt (altAll first) (altAll second)) := by
  induction first with
  | nil => exact absurd rfl one
  | cons regex first ih =>
    have joined {rest : List Regex} (nonempty : rest ≠ []) : altAll (regex :: rest) = .alt regex (altAll rest) := by
      cases rest with
      | nil => exact absurd rfl nonempty
      | cons next rest => rfl
    rw [List.cons_append, joined (by simp [other])]
    cases first with
    | nil => exact .refl _
    | cons next first =>
      rw [joined (by simp)]
      exact .trans (.alt (.refl regex) (ih (by simp))) (.symm (.alt_assoc _ _ _))

theorem chain_inSequence (branches : List (List Regex)) :
    Regrouped (chain (inSequence branches)) (ofLayout branches) := by
  unfold inSequence
  split
  · exact .symm (seqAll_chain _)
  · exact .seq_empty _

end Regrouped

theorem regrouped_pieces (regex : Regex) : Regrouped regex (chain regex.pieces) := by
  induction regex with
  | empty => exact .refl _
  | seq first second _ ih => exact .seq (.refl first) ih
  | _ => exact .symm (.seq_empty _)

theorem regrouped_flatten (regex : Regex) : Regrouped regex.flatten regex := by
  induction regex with
  | empty | char | atStart | atEnd => exact .refl _
  | seq first second ihFirst ihSecond =>
    refine .trans (Regrouped.seqAll_chain _) (.trans (Regrouped.chain_append _ _) (.seq ?_ ?_))
    · exact .trans (Regrouped.chain_inSequence _) ihFirst
    · exact .trans (Regrouped.chain_inSequence _) ihSecond
  | alt first second ihFirst ihSecond =>
    have joined : Regrouped (altAll (first.layout.map seqAll ++ second.layout.map seqAll)) _ :=
      .altAll_append (by simp [layout_ne_nil]) (by simp [layout_ne_nil])
    rw [← List.map_append] at joined
    exact .trans joined (.alt ihFirst ihSecond)
  | loop body bounds greed ih => exact .loop ih bounds greed
  | look positive body ih => exact .look positive ih
  | capture name body ih => exact .capture name ih
  | commit body ih => exact .commit ih

end FluentPattern.Regex
