import FluentPattern.Proofs.Compiling
import FluentPattern.Proofs.Regrouping

/-! Bounds that are in order. A regex without reversed bounds has none in the parts that are left to themselves, so the
one thing that can keep it from being compiled is its size. -/

namespace FluentPattern.Regex

variable {regex : Regex} {pieces : List Regex}

private theorem hasReversedBounds_eq {one other : Regex} (same : Regrouped one other) :
    one.hasReversedBounds = other.hasReversedBounds := by
  induction same with
  | refl => rfl
  | symm _ ih => exact ih.symm
  | trans _ _ ih ih' => exact ih.trans ih'
  | seq_assoc | alt_assoc => simp only [hasReversedBounds, Bool.or_assoc]
  | empty_seq | seq_empty => simp [hasReversedBounds]
  | seq _ _ ih ih' | alt _ _ ih ih' => simp only [hasReversedBounds, ih, ih']
  | loop _ _ _ ih | look _ _ ih | capture _ _ ih | commit _ ih => simp only [hasReversedBounds, ih]

theorem hasReversedBounds_flatten (meaning : Regex) : meaning.flatten.hasReversedBounds = meaning.hasReversedBounds :=
  hasReversedBounds_eq (regrouped_flatten meaning)

private theorem straight_pieces (straight : regex.hasReversedBounds = false) :
    ∀ piece ∈ regex.pieces, piece.hasReversedBounds = false := by
  induction regex with
  | empty => simp [Regex.pieces]
  | seq first second _ ih =>
    simp only [hasReversedBounds, Bool.or_eq_false_iff] at straight
    intro piece member
    rcases List.mem_cons.mp member with rfl | member
    · exact straight.1
    · exact ih straight.2 piece member
  | _ => simpa [Regex.pieces] using straight

private theorem straight_seqAll (straight : ∀ piece ∈ pieces, piece.hasReversedBounds = false) :
    (seqAll pieces).hasReversedBounds = false := by
  unfold seqAll
  split
  next => exact straight _ List.mem_cons_self
  next => simpa [hasReversedBounds_chain] using straight

theorem straight_framed (straight : regex.hasReversedBounds = false) :
    regex.framed.hasReversedBounds = false := by
  have pieces := straight_pieces straight
  unfold framed
  split
  next ahead last =>
    split
    next =>
      have body := pieces _ (List.mem_of_getLast? last)
      refine straight_seqAll fun piece member => ?_
      simp only [List.mem_cons, List.not_mem_nil, or_false] at member
      rcases member with rfl | rfl
      · exact straight_seqAll fun piece member => pieces piece (List.dropLast_subset _ member)
      · exact body
    next => exact straight
  next => exact straight

theorem straight_wholes (position : Position) (final : Bool) (straight : regex.hasReversedBounds = false) :
    ∀ part ∈ (regex.planFor position final).wholes, part.hasReversedBounds = false := by
  fun_induction planFor regex position final with
  | case1 | case2 | case10 => simpa [Plan.wholes] using straight
  | case3 _ _ _ _ _ _ _ ih =>
    simp only [hasReversedBounds, Bool.or_eq_false_iff] at straight
    rw [Plan.wholes, Plan.wholes, List.singleton_append, List.forall_mem_cons]
    exact ⟨straight.1, ih straight.2⟩
  | case4 _ _ _ _ _ _ _ ihFirst ihSecond | case5 _ _ _ _ _ ihFirst ihSecond =>
    simp only [hasReversedBounds, Bool.or_eq_false_iff] at straight
    rw [Plan.wholes, List.forall_mem_append]
    exact ⟨ihFirst straight.1, ihSecond straight.2⟩
  | case6 _ _ _ _ _ _ ih =>
    simp only [hasReversedBounds, Bool.or_eq_false_iff] at straight
    exact ih straight.2
  | case7 _ _ _ _ _ ih | case8 _ _ _ _ _ ih | case9 _ _ _ _ ih => exact ih straight

theorem ofGrammar_limitFault? {mode : Mode} {source : Text} {fault : Fault} (straight : regex.hasReversedBounds = false)
    (limit : limitFault? mode source regex = some fault) : fault.ofGrammar = false := by
  unfold limitFault? at limit
  split at limit
  next =>
    cases limit
    rfl
  next =>
    obtain ⟨part, member, failed⟩ := List.exists_of_findSome?_eq_some limit
    have inOrder := straight_wholes _ _ (straight_framed straight) part member
    rw [automatonFault?, inOrder, if_neg (by decide)] at failed
    split at failed
    next =>
      cases failed
      rfl
    next =>
      split at failed
      next =>
        cases failed
        rfl
      next => cases failed

end FluentPattern.Regex
