import FluentPattern.Proofs.Compiling
import FluentPattern.Proofs.Searching

/-! Sequences within sequences. A group around a part of a plain sequence changes neither what is matched nor what is
captured, and the sequence needs no more room without it. Where a condition on the text ahead follows the group, even
the plan stays the same. -/

namespace FluentPattern.Regex

namespace Resequenced

variable {one other : Regex}

theorem isPlain_eq (same : Resequenced one other) : one.isPlain = other.isPlain :=
  same.measure_eq and (fun _ _ => rfl) Bool.and_assoc Bool.true_and Bool.and_true

theorem hasReversedBounds_eq (same : Resequenced one other) : one.hasReversedBounds = other.hasReversedBounds :=
  same.measure_eq or (fun _ _ => rfl) Bool.or_assoc Bool.false_or Bool.or_false

theorem hasSmallCounts_eq (same : Resequenced one other) : one.hasSmallCounts = other.hasSmallCounts :=
  same.measure_eq and (fun _ _ => rfl) Bool.and_assoc Bool.true_and Bool.and_true

theorem heavySize_eq (same : Resequenced one other) (mode : Mode) : one.heavySize mode = other.heavySize mode :=
  same.measure_eq (· + ·) (fun _ _ => rfl) Nat.add_assoc Nat.zero_add Nat.add_zero

theorem groupNames_eq (same : Resequenced one other) : one.groupNames = other.groupNames :=
  same.measure_eq (· ++ ·) (fun _ _ => rfl) List.append_assoc List.nil_append List.append_nil

theorem groupCount_eq (same : Resequenced one other) : one.groupCount = other.groupCount := by
  rw [← length_groupNames, same.groupNames_eq, length_groupNames]

theorem groupBound_eq (same : Resequenced one other) (group : Nat) : one.groupBound group = other.groupBound group := by
  induction same generalizing group with
  | refl => rfl
  | symm _ ih => exact (ih group).symm
  | trans _ _ ih ih' => exact (ih group).trans (ih' group)
  | seq_assoc => simp only [groupBound, groupCount, Nat.max_assoc, Nat.add_assoc]
  | empty_seq | seq_empty => simp [groupBound, groupCount]
  | seq first _ ih ih' => simp only [groupBound, ih, ih', first.groupCount_eq]

theorem ways_eq (same : Resequenced one other) (mode : Mode) (group : Nat) (states : List State) :
    one.ways mode group none states = other.ways mode group none states := by
  induction same generalizing group states with
  | refl => rfl
  | symm _ ih => exact (ih group states).symm
  | trans _ _ ih ih' => exact (ih group states).trans (ih' group states)
  | seq_assoc => simp only [ways, groupCount, Trail.inside, Option.map_none, Nat.add_assoc]
  | empty_seq | seq_empty => simp [ways, groupCount, Trail.inside]
  | seq first _ ih ih' => simp only [ways, Trail.inside, Option.map_none, ih, ih', first.groupCount_eq]

end Resequenced

theorem depth_chain_append (mode : Mode) (first second : List Regex) :
    (chain (first ++ second)).depth mode .sequence =
      max ((chain first).depth mode .sequence) ((chain second).depth mode .sequence) := by
  induction first with
  | nil => exact (Nat.zero_max _).symm
  | cons regex first ih => simp only [List.cons_append, chain, depth, ih, Nat.max_assoc]

theorem depth_chain_le_piece (mode : Mode) (regexes : List Regex) :
    (chain regexes).depth mode .sequence ≤ (seqAll regexes).depth mode .piece := by
  match regexes with
  | [] => exact Nat.le_refl 0
  | [regex] => exact Nat.le_of_eq (Nat.max_zero _)
  | first :: second :: rest => exact Nat.le_add_right _ 2

/-- Two sequences of pieces without groups around them, and with groups where both of them have pieces. -/
inductive Ungrouped (first second : List Regex) : Regex → Regex → Prop
  | same (regex) : Ungrouped first second regex regex
  | pieces (nonempty : first ≠ []) :
      Ungrouped first second (chain (first ++ second)) (chain [seqAll first, seqAll second])

theorem ungrouped_seqAll {first second : List Regex} (solid : ∀ regex ∈ first ++ second, regex.isEmpty = false) :
    Ungrouped first second (seqAll (first ++ second)) (seqAll ([seqAll first, seqAll second].filter (!·.isEmpty))) := by
  have isEmpty {regexes : List Regex} (solid : ∀ regex ∈ regexes, regex.isEmpty = false) :
      (seqAll regexes).isEmpty = regexes.isEmpty := by
    match regexes with
    | [] => rfl
    | [regex] => exact solid regex List.mem_cons_self
    | _ :: _ :: _ => rfl
  have left := isEmpty fun regex member => solid regex (List.mem_append_left second member)
  have right := isEmpty fun regex member => solid regex (List.mem_append_right first member)
  match first, second with
  | [], [] => exact .same _
  | [], regex :: rest =>
    have kept : [seqAll [], seqAll (regex :: rest)].filter (!·.isEmpty) = [seqAll (regex :: rest)] := by
      simp [left, right]
    rw [kept]
    exact .same _
  | regex :: rest, [] =>
    have kept : [seqAll (regex :: rest), seqAll []].filter (!·.isEmpty) = [seqAll (regex :: rest)] := by
      simp [left, right]
    rw [kept, List.append_nil]
    exact .same _
  | regex :: rest, other :: more =>
    have kept : [seqAll (regex :: rest), seqAll (other :: more)].filter (!·.isEmpty) =
        [seqAll (regex :: rest), seqAll (other :: more)] := by
      simp [left, right]
    have several : seqAll ((regex :: rest) ++ other :: more) = chain ((regex :: rest) ++ other :: more) := by
      cases rest <;> rfl
    rw [kept, several]
    exact .pieces (List.cons_ne_nil _ _)

namespace Ungrouped

variable {first second : List Regex} {one other : Regex}

theorem resequenced (ungrouped : Ungrouped first second one other) : Resequenced one other := by
  cases ungrouped with
  | same => exact .refl _
  | pieces =>
    exact .trans (.chain_append first second)
      (.seq (.symm (.seqAll_chain first)) (.trans (.symm (.seqAll_chain second)) (.symm (.seq_empty _))))

theorem automatonFault? (ungrouped : Ungrouped first second one other) {mode : Mode}
    (fits : Regex.automatonFault? mode (.capture none other) = none) :
    Regex.automatonFault? mode (.capture none one) = none := by
  have same := ungrouped.resequenced
  cases ungrouped with
  | same => exact fits
  | pieces nonempty =>
    rw [automatonFault?_eq_none_iff] at fits ⊢
    simp only [hasReversedBounds, hasSmallCounts, heavySize, same.hasReversedBounds_eq, same.hasSmallCounts_eq,
      same.heavySize_eq] at fits ⊢
    obtain ⟨straight, small, light, shallow⟩ := fits
    refine ⟨straight, small, light, Nat.le_trans (Nat.succ_le_succ ?_) shallow⟩
    obtain ⟨regex, rest, rfl⟩ := List.exists_cons_of_ne_nil nonempty
    have inner := depth_chain_append mode (regex :: rest) second
    have left := depth_chain_le_piece mode (regex :: rest)
    have right := depth_chain_le_piece mode second
    simp only [List.cons_append, chain, depth] at inner left ⊢
    omega

end Ungrouped

/-- Plain sequences of the same pieces match alike, groups included. -/
theorem Resequenced.search?_eq {one other : Regex} (same : Resequenced one other) (plain : one.isPlain) (mode : Mode)
    (cursor : Cursor) : one.search? mode cursor = other.search? mode cursor := by
  have plain' : other.isPlain := same.isPlain_eq ▸ plain
  have here (cursor : Cursor) : one.plan.matchAt? mode cursor = other.plan.matchAt? mode cursor := by
    simp only [plan_of_isPlain plain, plan_of_isPlain plain', Plan.matchAt?, Plan.ways, ways, groupCount, Trail.inside,
      Option.map_none, same.ways_eq, same.groupCount_eq]
  obtain ⟨before, rest⟩ := cursor
  unfold search? Plan.search?
  simp only
  induction rest generalizing before with
  | nil => exact here _
  | cons c rest ih => rw [Plan.searchFrom?, Plan.searchFrom?, here, ih]

theorem Resequenced.reportedGroups_eq {one other : Regex} (same : Resequenced one other) (plain : one.isPlain) :
    one.reportedGroups = other.reportedGroups := by
  have plain' : other.isPlain := same.isPlain_eq ▸ plain
  simp [reportedGroups, framed_of_isPlain plain, framed_of_isPlain plain', isPlain, plain, plain', groupBound,
    same.groupBound_eq]

/-- A condition on the text ahead is matched after pieces as it is after a group of them. -/
theorem Ungrouped.framed_eq {first : List Regex} {ahead one other : Regex}
    (ungrouped : Ungrouped first [.look true ahead] one other) : one.framed = other.framed := by
  cases ungrouped with
  | same => rfl
  | pieces nonempty =>
    obtain ⟨regex, rest, rfl⟩ := List.exists_cons_of_ne_nil nonempty
    have last : ((regex :: rest) ++ [Regex.look true ahead]).getLast? = some (.look true ahead) := List.getLast?_concat
    have earlier : ((regex :: rest) ++ [Regex.look true ahead]).dropLast = regex :: rest := List.dropLast_concat
    have left : (chain ((regex :: rest) ++ [.look true ahead])).framed =
        seqAll [.capture none (seqAll (regex :: rest)), ahead] := by
      unfold framed
      rw [pieces_chain, last, earlier]
      rfl
    rw [left]
    rfl

end FluentPattern.Regex

namespace FluentPattern.Pattern
open Regex

structure SameMatches (one other : Pattern) : Prop extends SameSpans one other where
  captures? : ∀ haystack, one.captures? haystack = other.captures? haystack

/-- What a pattern matches depends on single searches, and what it reports of them on its groups. -/
theorem sameMatches_of_search? {one other : Pattern} (flags : one.flags = other.flags)
    (same : ∀ cursor, one.regex.search? one.mode cursor = other.regex.search? other.mode cursor)
    (groups : one.regex.reportedGroups = other.regex.reportedGroups)
    (names : one.regex.groupNames = other.regex.groupNames) : SameMatches one other where
  toSameSpans := sameSpans_of_search? flags fun cursor => congrArg (Option.map (·.whole)) (same cursor)
  captures? haystack := by
    rw [Pattern.captures?, Pattern.captures?, search?, search?, same, groups, nameTable, nameTable, names]

theorem sameMatches_of_resequenced {one other : Pattern} (flags : one.flags = other.flags)
    (same : Resequenced one.regex other.regex) (plain : one.regex.isPlain) : SameMatches one other := by
  refine sameMatches_of_search? flags (fun cursor => ?_) (same.reportedGroups_eq plain) same.groupNames_eq
  rw [mode, mode, flags]
  exact same.search?_eq plain _ cursor

theorem sameMatches_of_framed {one other : Pattern} (flags : one.flags = other.flags)
    (same : one.regex.framed = other.regex.framed) (names : one.regex.groupNames = other.regex.groupNames) :
    SameMatches one other := by
  refine sameMatches_of_search? flags (fun cursor => ?_) ?_ names
  · rw [mode, mode, flags, Regex.search?, Regex.search?, plan, plan, same]
  · rw [reportedGroups, reportedGroups, same]

end FluentPattern.Pattern
