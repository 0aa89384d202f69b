import FluentPattern.Node.Render
import FluentPattern.Proofs.Compiling
import FluentPattern.Proofs.Ends
import Mathlib.Data.List.Basic

/-! The capturing groups of a tree, and of what a text is read as, in the order of their numbers. A group comes before
the groups inside it, and a piece before the condition on the text behind it. The engine counts the groups of a match in
the same order, but may leave out the last ones of them, if nothing can ever come to pass in them.

Where the parts of a regex lead is told here as if any condition on what must not come next were passed. Such conditions
capture nothing, and only rule places out. -/

namespace FluentPattern

namespace Regex

/-- A regex without the conditions on what must not come next, and with all ways left to each part. -/
def lenient : Regex → Regex
  | .seq first second => .seq first.lenient second.lenient
  | .alt first second => .alt first.lenient second.lenient
  | .loop body bounds greed => .loop body.lenient bounds greed
  | .look positive body => if positive then .look true body.lenient else .empty
  | .capture name body => .capture name body.lenient
  | .commit body => body.lenient
  | regex => regex

theorem Regrouped.lenient {first second : Regex} (same : Regrouped first second) :
    Regrouped first.lenient second.lenient := by
  induction same with
  | refl => exact .refl _
  | symm _ ih => exact ih.symm
  | trans _ _ one other => exact one.trans other
  | seq_assoc => exact .seq_assoc ..
  | empty_seq => exact .empty_seq _
  | seq_empty => exact .seq_empty _
  | alt_assoc => exact .alt_assoc ..
  | seq _ _ one other => exact .seq one other
  | alt _ _ one other => exact .alt one other
  | loop _ bounds greed ih => exact .loop ih bounds greed
  | look positive _ ih =>
    cases positive with
    | true => exact .look true ih
    | false => exact .refl _
  | capture name _ ih => exact .capture name ih
  | commit _ ih => exact ih

/-- Where a regex can stop if it may pass any condition on what must not come next. -/
def leads (mode : Mode) (regex : Regex) : Cursor → List Cursor := regex.lenient.ends mode

theorem Regrouped.leads_eq {first second : Regex} (same : Regrouped first second) (mode : Mode) :
    first.leads mode = second.leads mode := same.lenient.ends_eq mode

end Regex

/-- A capturing group of a tree: its name, what is read on the way to it, what is in it, and whether it stands in
something that is repeated at most zero times. -/
structure CaptureGroup (α : Type) where
  name : Option Text
  before : α
  body : α
  idle : Bool

namespace CaptureGroup

variable {α β : Type}

def map (change : α → β) (group : CaptureGroup α) : CaptureGroup β :=
  ⟨group.name, change group.before, change group.body, group.idle⟩

def behind (join : α → α) (group : CaptureGroup α) : CaptureGroup α := { group with before := join group.before }

def asIdle (group : CaptureGroup α) : CaptureGroup α := { group with idle := true }

def within (bounds : Bounds) (groups : List (CaptureGroup α)) : List (CaptureGroup α) :=
  if bounds.most = some 0 then groups.map asIdle else groups

/-- The number of groups up to the last one that is not idle. -/
def used : List (CaptureGroup α) → Nat
  | [] => 0
  | group :: rest => if group.idle ∧ used rest = 0 then 0 else used rest + 1

variable {groups : List (CaptureGroup α)}

theorem used_le_length (groups : List (CaptureGroup α)) : used groups ≤ groups.length := by
  induction groups with
  | nil => exact Nat.le_refl 0
  | cons group rest ih =>
    rw [used, List.length_cons]
    split <;> omega

theorem used_append (first second : List (CaptureGroup α)) :
    used (first ++ second) = if used second = 0 then used first else first.length + used second := by
  induction first with
  | nil =>
    simp only [List.nil_append, used, List.length_nil]
    split <;> omega
  | cons group rest ih =>
    rw [List.cons_append, used, ih, used]
    by_cases none : used second = 0
    · simp [none]
    · simp only [if_neg none, List.length_cons]
      rw [if_neg (by omega)]
      omega

theorem used_asIdle (groups : List (CaptureGroup α)) : used (groups.map asIdle) = 0 := by
  induction groups with
  | nil => rfl
  | cons group rest ih => simp [used, asIdle, ih]

private theorem used_of_idle (change : CaptureGroup α → CaptureGroup β)
    (keeps : ∀ group, (change group).idle = group.idle) (groups : List (CaptureGroup α)) :
    used (groups.map change) = used groups := by
  induction groups with
  | nil => rfl
  | cons group rest ih => simp only [List.map_cons, used, keeps, ih]

theorem used_map (change : α → β) (groups : List (CaptureGroup α)) : used (groups.map (map change)) = used groups :=
  used_of_idle (map change) (fun _ => rfl) groups

theorem used_behind (join : α → α) (groups : List (CaptureGroup α)) : used (groups.map (behind join)) = used groups :=
  used_of_idle (behind join) (fun _ => rfl) groups

theorem map_name_behind (join : α → α) (groups : List (CaptureGroup α)) :
    (groups.map (behind join)).map (·.name) = groups.map (·.name) := by
  rw [List.map_map]
  rfl

theorem map_name_within (bounds : Bounds) (groups : List (CaptureGroup α)) :
    (within bounds groups).map (·.name) = groups.map (·.name) := by
  unfold within
  split
  · rw [List.map_map]
    rfl
  · rfl

theorem map_within (change : α → β) (bounds : Bounds) (groups : List (CaptureGroup α)) :
    (within bounds groups).map (map change) = within bounds (groups.map (map change)) := by
  unfold within
  split
  · rw [List.map_map, List.map_map]
    rfl
  · rfl

end CaptureGroup

namespace Regex

variable {names : List (Option Text)} {name : Text} {number : Nat}

theorem mem_keepLast : some name ∈ keepLast names ↔ some name ∈ names := by
  induction names with
  | nil => rfl
  | cons first later ih =>
    rw [keepLast, List.mem_cons, List.mem_cons, ih]
    split
    next again =>
      constructor
      · rintro (same | member)
        · cases same
        · exact .inr member
      · rintro (rfl | member)
        · exact .inr again
        · exact .inr member
    next => rfl

private theorem last_head_iff {first : Option Text} {later : List (Option Text)} :
    (∀ other, (first :: later)[other]? = some (some name) → other ≤ 0) ↔ some name ∉ later := by
  constructor
  · intro last member
    obtain ⟨place, found⟩ := List.mem_iff_getElem?.mp member
    exact Nat.not_succ_le_zero place (last (place + 1) found)
  · intro absent other found
    cases other with
    | zero => exact Nat.le_refl 0
    | succ other =>
      rw [List.getElem?_cons_succ] at found
      exact absurd (List.mem_of_getElem? found) absent

theorem getElem?_keepLast_eq_some_iff :
    (keepLast names)[number]? = some (some name) ↔
      names[number]? = some (some name) ∧ ∀ other, names[other]? = some (some name) → other ≤ number := by
  induction names generalizing number with
  | nil => simp [keepLast]
  | cons first later ih =>
    cases number with
    | zero =>
      rw [last_head_iff, keepLast, List.getElem?_cons_zero, List.getElem?_cons_zero]
      split
      next again =>
        refine ⟨nofun, fun ⟨same, absent⟩ => ?_⟩
        exact absurd (Option.some.inj same ▸ again) absent
      next alone =>
        refine ⟨fun same => ⟨same, ?_⟩, And.left⟩
        exact Option.some.inj same ▸ alone
    | succ number =>
      rw [keepLast, List.getElem?_cons_succ, List.getElem?_cons_succ, ih]
      refine and_congr_right fun _ => ⟨fun last other place => ?_, fun last other place => ?_⟩
      · cases other with
        | zero => exact Nat.zero_le _
        | succ other => exact Nat.succ_le_succ (last other place)
      · exact Nat.le_of_succ_le_succ (last (other + 1) place)

end Regex

namespace Captures

variable {captures : Captures} {regex : Regex} {name : Text} (table : captures.names = regex.nameTable)

include table

/-- Of several groups of one name, the last one has it. -/
theorem named?_eq_get? {number : Nat} (has : regex.groupNames[number]? = some (some name))
    (last : ∀ other, regex.groupNames[other]? = some (some name) → other ≤ number) :
    captures.named? name = captures.get? (number + 1) := by
  obtain ⟨bound, same⟩ := List.getElem?_eq_some_iff.mp (Regex.getElem?_keepLast_eq_some_iff.mpr ⟨has, last⟩)
  have place : regex.nameTable.idxOf? (some name) = some (number + 1) := by
    refine List.idxOf?_eq_some_iff.mpr ⟨Nat.succ_lt_succ bound, same, fun earlier less other => ?_⟩
    cases earlier with
    | zero => cases other
    | succ earlier =>
      have inside := Nat.lt_trans (Nat.lt_of_succ_lt_succ less) bound
      have kept := Regex.getElem?_keepLast_eq_some_iff.mp (List.getElem?_eq_some_iff.mpr ⟨inside, other⟩)
      exact Nat.not_lt.mpr (kept.2 number has) (Nat.lt_of_succ_lt_succ less)
  rw [named?, table, place, Option.bind_some]

theorem named?_eq_none (absent : some name ∉ regex.groupNames) : captures.named? name = none := by
  have missing : some name ∉ regex.nameTable := by
    rw [Regex.nameTable, List.mem_cons, Regex.mem_keepLast]
    rintro (same | member)
    · cases same
    · exact absent member
  rw [named?, table, List.idxOf?_eq_none_iff.mpr missing, Option.bind_none]

end Captures

open CaptureGroup

/-- The groups of a tree, from left to right. Before a group in a repetition, other passes may have been read. -/
def Node.groups : Node → List (CaptureGroup Node)
  | .empty | .exact _ | .oneOf .. => []
  | .sequence first second | .lookahead first second _ => first.groups ++ second.groups.map (behind (.sequence first))
  | .choice first second => first.groups ++ second.groups
  | .repeated body times =>
    within times.bounds (body.groups.map (behind (.sequence (.repeated body (.zeroOrMore .greedy)))))
  | .capture body name => ⟨name, .empty, body, false⟩ :: body.groups

namespace Regex

def anyTimes (body : Regex) : Regex := .loop body ⟨0, none⟩ .greedy

def groups : Regex → List (CaptureGroup Regex)
  | .empty | .char _ | .atStart | .atEnd => []
  | .seq first second => first.groups ++ second.groups.map (behind (.seq first))
  | .alt first second => first.groups ++ second.groups
  | .loop body bounds _ => within bounds (body.groups.map (behind (.seq body.anyTimes)))
  | .look _ body | .commit body => body.groups
  | .capture name body => ⟨name, .empty, body, false⟩ :: body.groups

theorem map_name_groups (regex : Regex) : regex.groups.map (·.name) = regex.groupNames := by
  induction regex with
  | empty | char | atStart | atEnd => rfl
  | seq _ _ ihFirst ihSecond =>
    rw [groups, groupNames, List.map_append, map_name_behind, ihFirst, ihSecond]
  | alt _ _ ihFirst ihSecond => rw [groups, groupNames, List.map_append, ihFirst, ihSecond]
  | loop body bounds _ ih => rw [groups, groupNames, map_name_within, map_name_behind, ih]
  | look _ _ ih | commit _ ih => exact ih
  | capture name _ ih => exact congrArg (name :: ·) ih

theorem length_groups (regex : Regex) : regex.groups.length = regex.groupCount := by
  rw [← length_groupNames, ← map_name_groups, List.length_map]

private theorem used_join {first second : List (CaptureGroup Regex)} {group : Nat} :
    (if used (first ++ second) = 0 then 0 else group + used (first ++ second)) =
      max (if used first = 0 then 0 else group + used first)
        (if used second = 0 then 0 else group + first.length + used second) := by
  have few := used_le_length first
  rw [used_append]
  by_cases none : used second = 0
  · simp [none]
  · simp only [if_neg none]
    rw [if_neg (by omega)]
    split <;> omega

theorem groupBound_eq (regex : Regex) (group : Nat) :
    regex.groupBound group = if used regex.groups = 0 then 0 else group + used regex.groups := by
  induction regex generalizing group with
  | empty | char | atStart | atEnd => rfl
  | seq first second ihFirst ihSecond =>
    rw [groupBound, groups, used_join, used_behind, ihFirst, ihSecond, length_groups]
  | alt first second ihFirst ihSecond => rw [groupBound, groups, used_join, ihFirst, ihSecond, length_groups]
  | loop body bounds _ ih =>
    rw [groupBound, groups, within]
    split
    · rw [used_asIdle, if_pos rfl]
    · rw [used_behind]
      exact ih group
  | look _ body ih | commit body ih => exact ih group
  | capture name body ih =>
    simp only [groupBound, groups, used, ih, Bool.false_eq_true, false_and, if_false, Nat.succ_ne_zero]
    split <;> omega

section Regrouping

variable {mode : Mode}

theorem map_leads_behind (first : Regex) (groups : List (CaptureGroup Regex)) :
    (groups.map (behind (.seq first))).map (map (leads mode)) =
      (groups.map (map (leads mode))).map (behind fun lead cursor => (first.leads mode cursor).flatMap lead) := by
  rw [List.map_map, List.map_map]
  rfl

private theorem map_leads_congr {one other : Regex → Regex}
    (same : ∀ before, (one before).leads mode = (other before).leads mode) (groups : List (CaptureGroup Regex)) :
    (groups.map (behind one)).map (map (leads mode)) = (groups.map (behind other)).map (map (leads mode)) := by
  rw [List.map_map, List.map_map]
  apply List.map_congr_left
  intro group _
  simp only [Function.comp_apply, behind, map, same]

/-- Regroupings have the same groups, as far as can be told by where things lead. -/
theorem Regrouped.groups_eq {first second : Regex} (same : Regrouped first second) :
    first.groups.map (map (leads mode)) = second.groups.map (map (leads mode)) := by
  induction same with
  | refl => rfl
  | symm _ ih => exact ih.symm
  | trans _ _ one other => exact one.trans other
  | seq_assoc first second third =>
    have last := map_leads_congr (fun before => (Regrouped.seq_assoc first second before).leads_eq mode) third.groups
    simp only [groups, List.map_append, List.append_assoc, last, List.map_map]
    rfl
  | empty_seq regex =>
    have all := map_leads_congr (fun before => (Regrouped.empty_seq before).leads_eq mode) regex.groups
    exact all.trans (congrArg _ (List.map_id _))
  | seq_empty | alt_assoc => simp [groups]
  | seq one _ ih ih' => simp only [groups, List.map_append, map_leads_behind, ih, ih', one.leads_eq]
  | alt _ _ ih ih' => simp only [groups, List.map_append, ih, ih']
  | loop same bounds _ ih =>
    have passes := (Regrouped.loop same ⟨0, none⟩ .greedy).leads_eq mode
    simp only [groups, map_within, map_leads_behind, ih, anyTimes, passes]
  | look _ _ ih | commit _ ih => exact ih
  | capture name same ih => simp only [groups, List.map_cons, ih, map, same.leads_eq]

theorem groups_framed (mode : Mode) (regex : Regex) :
    ∃ whole rest, regex.framed.groups = ⟨none, .empty, whole, false⟩ :: rest ∧
      rest.map (map (leads mode)) = regex.groups.map (map (leads mode)) := by
  unfold framed
  split
  next ahead last =>
    split
    next first second =>
      obtain ⟨front, split⟩ := List.getLast?_eq_some_iff.mp last
      have pieces := regrouped_pieces (.seq first second)
      rw [split] at pieces
      have same : Regrouped (.seq first second) (.seq (seqAll front) (.look true ahead)) :=
        pieces.trans (.trans (.chain_append front _) (.seq (Regrouped.seqAll_chain front).symm (.seq_empty _)))
      rw [same.groups_eq, split, List.dropLast_concat]
      refine ⟨seqAll front, (seqAll front).groups ++ ahead.groups.map (behind (.seq (.capture none (seqAll front)))), ?_, ?_⟩
      · show (Regex.seq (.capture none (seqAll front)) (.seq ahead .empty)).groups = _
        simp [groups]
      · rw [groups, List.map_append, List.map_append, map_leads_behind, map_leads_behind]
        rfl
    next => exact ⟨_, _, rfl, rfl⟩
  next => exact ⟨_, _, rfl, rfl⟩

end Regrouping

/-- A match reports the group around it and all groups of the regex; where nothing asks for the text ahead, all groups
up to the last one that is used. -/
theorem reportedGroups_eq (regex : Regex) :
    regex.reportedGroups = 1 + if regex.framed.isPlain then used regex.groups else regex.groups.length := by
  obtain ⟨whole, rest, framed, same⟩ := regex.groups_framed ⟨false, false, false⟩
  have length := congrArg List.length same
  have inUse := congrArg used same
  simp only [List.length_map, used_map] at length inUse
  unfold reportedGroups
  split
  next =>
    rw [groupBound_eq, framed, used, if_neg (by simp), if_neg (by simp), inUse]
    omega
  next =>
    rw [← length_groups, framed, List.length_cons, length]
    omega

end Regex
end FluentPattern
