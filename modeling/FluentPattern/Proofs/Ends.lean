import FluentPattern.Proofs.Regrouping
import FluentPattern.Regex.Shape
import FluentPattern.Regex.State

/-! Where a regex can stop, told without states. From a place a regex leads to other places of the same text, the
preferred ones first; a place may come up more than once, and only its first turn counts. Nothing is pruned and nothing
is remembered here, so the equations of the engine's search can be read off the tree. -/

namespace FluentPattern.Regex

def passes (pass : Cursor → List Cursor) : Nat → Cursor → List Cursor
  | 0, cursor => [cursor]
  | count + 1, cursor => (pass cursor).flatMap (passes pass count)

def upTo (greed : Greed) (pass : Cursor → List Cursor) : Nat → Cursor → List Cursor
  | 0, cursor => [cursor]
  | count + 1, cursor =>
    match greed with
    | .greedy => (pass cursor).flatMap (upTo greed pass count) ++ [cursor]
    | .lazy => cursor :: (pass cursor).flatMap (upTo greed pass count)

theorem mem_upTo_succ {greed : Greed} {pass : Cursor → List Cursor} {count : Nat} {cursor place : Cursor} :
    place ∈ upTo greed pass (count + 1) cursor ↔
      place ∈ (pass cursor).flatMap (upTo greed pass count) ∨ place = cursor := by
  cases greed <;> simp [upTo, or_comm]

def reading (pass : Cursor → List Cursor) (cursor : Cursor) : List Cursor :=
  (pass cursor).filter (·.rest.length < cursor.rest.length)

/-- Where a repetition stops. Reversed bounds mean the lower one of them; without a limit, the passes beyond the least
number have to read something. -/
def loopEnds (bounds : Bounds) (greed : Greed) (pass : Cursor → List Cursor) (cursor : Cursor) : List Cursor :=
  match bounds.most with
  | some most => (passes pass (min bounds.least most) cursor).flatMap (upTo greed pass (most - bounds.least))
  | none => (passes pass bounds.least cursor).flatMap fun place => upTo greed (reading pass) place.rest.length place

/-- Where a regex stops that starts at a place. -/
def ends (mode : Mode) : Regex → Cursor → List Cursor
  | .empty, cursor => [cursor]
  | .char _, ⟨_, []⟩ => []
  | .char set, ⟨before, c :: rest⟩ => if set.contains mode c then [⟨c :: before, rest⟩] else []
  | .atStart, cursor => if (State.start cursor).isStart mode.multiLine then [cursor] else []
  | .atEnd, cursor => if (State.start cursor).isEnd mode.multiLine then [cursor] else []
  | .seq first second, cursor => (first.ends mode cursor).flatMap (second.ends mode)
  | .alt first second, cursor => first.ends mode cursor ++ second.ends mode cursor
  | .loop body bounds greed, cursor => loopEnds bounds greed (body.ends mode) cursor
  | .look positive body, cursor => if (body.ends mode cursor).isEmpty = positive then [] else [cursor]
  | .capture _ body, cursor => body.ends mode cursor
  | .commit body, cursor => (body.ends mode cursor).head?.toList

/-- Whether every pass of a repetition without limit reads something. -/
def isSteady : Regex → Bool
  | .empty | .char _ | .atStart | .atEnd => true
  | .seq first second | .alt first second => first.isSteady && second.isSteady
  | .loop body bounds _ => (bounds.most.isSome || body.minSize != 0) && body.isSteady
  | .look _ body | .capture _ body | .commit body => body.isSteady

def Forward (lead : Cursor → List Cursor) : Prop :=
  ∀ cursor, ∀ place ∈ lead cursor, place.text = cursor.text ∧ place.rest.length ≤ cursor.rest.length

theorem cursor_eq {one other : Cursor} (same : one.text = other.text) (left : one.rest.length = other.rest.length) :
    one = other := by
  obtain ⟨before, rest⟩ := one
  obtain ⟨before', rest'⟩ := other
  obtain ⟨first, second⟩ := List.append_inj' same left
  exact Cursor.mk.injEq .. ▸ ⟨List.reverse_inj.mp first, second⟩

namespace Forward

variable {lead : Cursor → List Cursor}

theorem flatMap {next : Cursor → List Cursor} (one : Forward lead) (other : Forward next) :
    Forward fun cursor => (lead cursor).flatMap next := by
  intro cursor place member
  obtain ⟨middle, first, second⟩ := List.mem_flatMap.mp member
  obtain ⟨sameText, less⟩ := one cursor middle first
  obtain ⟨sameText', less'⟩ := other middle place second
  exact ⟨sameText'.trans sameText, Nat.le_trans less' less⟩

theorem stay : Forward fun cursor => [cursor] := by
  intro cursor place member
  rw [List.mem_singleton.mp member]
  exact ⟨rfl, Nat.le_refl _⟩

theorem passes (forward : Forward lead) (count : Nat) : Forward (passes lead count) := by
  induction count with
  | zero => exact stay
  | succ count ih => exact forward.flatMap ih

theorem upTo (forward : Forward lead) (greed : Greed) (count : Nat) : Forward (upTo greed lead count) := by
  induction count with
  | zero => exact stay
  | succ count ih =>
    intro cursor place member
    rcases mem_upTo_succ.mp member with member | rfl
    · exact forward.flatMap ih cursor place member
    · exact stay place place (List.mem_singleton_self place)

theorem reading (forward : Forward lead) : Forward (reading lead) := fun cursor place member =>
  forward cursor place (List.mem_filter.mp member).1

theorem loopEnds (forward : Forward lead) (bounds : Bounds) (greed : Greed) : Forward (loopEnds bounds greed lead) := by
  intro cursor place member
  unfold Regex.loopEnds at member
  split at member
  · exact (forward.passes _).flatMap (forward.upTo greed _) cursor place member
  · have last : Forward fun place => Regex.upTo greed (Regex.reading lead) place.rest.length place :=
      fun cursor => forward.reading.upTo greed _ cursor
    exact (forward.passes _).flatMap last cursor place member

theorem eq_of_left (forward : Forward lead) {cursor place : Cursor} (member : place ∈ lead cursor)
    (same : place.rest.length = cursor.rest.length) : place = cursor :=
  cursor_eq (forward _ _ member).1 same

end Forward

theorem forward_ends (mode : Mode) (regex : Regex) : Forward (regex.ends mode) := by
  induction regex with
  | empty => exact .stay
  | char set =>
    rintro ⟨before, _ | ⟨c, rest⟩⟩ place member
    · cases member
    · simp only [ends] at member
      split at member
      · rw [List.mem_singleton.mp member]
        simp [Cursor.text]
      · cases member
  | atStart | atEnd =>
    intro cursor place member
    simp only [ends] at member
    split at member
    · exact Forward.stay cursor place member
    · cases member
  | seq first second ihFirst ihSecond => exact ihFirst.flatMap ihSecond
  | alt first second ihFirst ihSecond =>
    intro cursor place member
    rcases List.mem_append.mp member with member | member
    · exact ihFirst cursor place member
    · exact ihSecond cursor place member
  | loop body bounds greed ih => exact ih.loopEnds bounds greed
  | look positive body ih =>
    intro cursor place member
    simp only [ends] at member
    split at member
    · cases member
    · exact Forward.stay cursor place member
  | capture name body ih => exact ih
  | commit body ih =>
    intro cursor place member
    exact ih cursor place (List.mem_of_mem_head? (Option.mem_toList.mp member))

/-- Regroupings stop at the same places in the same order. -/
theorem Regrouped.ends_eq {first second : Regex} (same : Regrouped first second) (mode : Mode) :
    first.ends mode = second.ends mode := by
  induction same with
  | refl => rfl
  | symm _ ih => exact ih.symm
  | trans _ _ one other => exact one.trans other
  | seq_assoc | empty_seq | seq_empty | alt_assoc => funext cursor; simp [ends, List.flatMap_assoc]
  | seq _ _ one other | alt _ _ one other => funext cursor; simp [ends, one, other]
  | loop _ _ _ ih | look _ _ ih | capture _ _ ih | commit _ ih => funext cursor; simp [ends, ih]

theorem Regrouped.minSize_eq {first second : Regex} (same : Regrouped first second) :
    first.minSize = second.minSize := by
  induction same with
  | seq_assoc | alt_assoc => simp [minSize, Nat.add_assoc, Nat.min_assoc]
  | _ => simp_all [minSize]

theorem Regrouped.isSteady_eq {first second : Regex} (same : Regrouped first second) :
    first.isSteady = second.isSteady := by
  induction same with
  | loop same _ _ ih => simp [isSteady, ih, same.minSize_eq]
  | seq_assoc | alt_assoc => simp [isSteady, Bool.and_assoc]
  | _ => simp_all [isSteady]

end FluentPattern.Regex
