import FluentPattern.Proofs.Sequences
import FluentPattern.Proofs.Spelling
import FluentPattern.Proofs.TokenSeams

/-! Two texts one after the other, and the same texts in groups of their own. They are read alike exactly if no token
runs on from the first text into the second and neither of them has a bar outside of groups, unless the other one
is blank. -/

namespace FluentPattern.Proofs.TextPairs
open Regex Tokens TokenSeams GroupReading Spelling

variable {dialect : Dialect}

def cut (dialect : Dialect) (text : Text) : List Token := tokens dialect (.outside .nothing) text

def bars (dialect : Dialect) (text : Text) : Nat := outerBars 0 (cut dialect text)

/-- Whether no token runs on from a text into the next one. -/
def Joins (dialect : Dialect) (front back : Text) : Prop :=
  cut dialect (front ++ back) = cut dialect front ++ cut dialect back

def Spells (dialect : Dialect) (text : Text) (inside : Branches) : Prop :=
  Runs dialect {} (cut dialect text) ⟨inside, []⟩

theorem read_eq_ok_iff {text : Text} {regex : Regex} :
    Regex.read dialect text = .ok regex ↔ ∃ inside, Spells dialect text inside ∧ inside.whole = regex := by
  unfold Regex.read Spells cut
  constructor
  · intro reads
    split at reads
    next reading runs =>
      obtain ⟨inside, around⟩ := reading
      cases around with
      | nil => exact ⟨inside, run_eq_ok_iff.mp runs, Except.ok.inj reads⟩
      | cons => cases reads
    next => cases reads
  · rintro ⟨inside, runs, rfl⟩
    rw [run_eq_ok_iff.mpr runs]
    rfl

namespace Spells

variable {text : Text} {inside : Branches}

theorem sound (spells : Spells dialect text inside) : Sound (cut dialect text) :=
  fun fault => Runs.ne_fault spells fault

theorem read_eq (spells : Spells dialect text inside) : Regex.read dialect text = .ok inside.whole :=
  read_eq_ok_iff.mpr ⟨inside, spells, rfl⟩

theorem length_done (spells : Spells dialect text inside) : inside.done.length = bars dialect text := by
  simpa [outermost, bars] using Runs.length_done spells

theorem signs_eq (spells : Spells dialect text inside) :
    inside.whole.signs = bare [] (cut dialect text) :=
  signs_of_runs spells

theorem blank (spells : Spells dialect text inside) (blank : inside.whole.isBlank) : Blank inside :=
  blank_of_runs spells (fun _ => isBlank_of_item) blank

theorem blank_iff (spells : Spells dialect text inside) : Blank inside ↔ Regex.read dialect text = .ok .empty := by
  rw [spells.read_eq, Except.ok.injEq]
  exact ⟨whole_of_blank, fun empty => spells.blank (empty ▸ rfl)⟩

end Spells

structure Item (dialect : Dialect) (text : Text) (pieces : List Token) (regex : Regex) : Prop where
  cuts : CutsItem dialect text pieces
  runs : ∀ reading, Runs dialect reading pieces { reading with inside := reading.inside.push regex }

private theorem barrier_closing (back : Text) : Barrier dialect (')' :: back) :=
  barrier_of_head (by decide) (by decide) (by decide)

theorem Spells.grouped {text : Text} {inside : Branches} (spells : Spells dialect text inside) :
    Item dialect (grouped text) ([.opening .plain] ++ cut dialect text ++ [.closing]) inside.whole where
  cuts := by
    refine ⟨settled_cons (by decide), by simp [FluentPattern.grouped], fun before rest => ?_⟩
    have inner := tokens_append (spells.sound) (barrier_closing rest)
    simp [FluentPattern.grouped, tokens, signBounds?, cut, inner]
  runs := Runs.group spells .plain

theorem Spells.ahead {text : Text} {inside : Branches} (spells : Spells dialect text inside) (positive : Bool) :
    Item dialect (Node.aheadSign positive ++ text ++ [')'])
      ([.opening (.look positive)] ++ cut dialect text ++ [.closing]) (.look positive inside.whole) where
  cuts := by
    refine ⟨settled_cons (by decide), by simp, fun before rest => ?_⟩
    have inner := tokens_append spells.sound (barrier_closing rest)
    cases positive <;> simp [Node.aheadSign, tokens, signBounds?, cut, inner]
  runs := Runs.group spells (.look positive)

theorem item_start : Item dialect ['^'] [.item .atStart] .atStart where
  cuts := cutsItem_start
  runs _ := .single (.item ..)

namespace Item

variable {text front back : Text} {pieces more : List Token} {regex first second : Regex}

theorem spells (item : Item dialect text pieces regex) : Spells dialect text ⟨[], [regex]⟩ := by
  rw [Spells, cut, item.cuts.cuts.tokens_eq]
  exact item.runs {}

theorem joins (one : Item dialect front pieces first) (other : Item dialect back more second) :
    cut dialect (front ++ back) = pieces ++ more :=
  (one.cuts.cuts.append other.cuts.cuts).tokens_eq

theorem pair (one : Item dialect front pieces first) (other : Item dialect back more second) :
    Spells dialect (front ++ back) ⟨[], [second, first]⟩ := by
  rw [Spells, one.joins other]
  exact (one.runs {}).append (other.runs _)

end Item

/-- What comes after an item depends on the item, not on its text. -/
theorem Item.read_congr {text front : Text} {pieces more : List Token} {regex : Regex}
    (item : Item dialect text pieces regex)
    (cuts : ∀ rest, cut dialect (front ++ rest) = more ++ tokens dialect (.outside .item) rest)
    (runs : Runs dialect {} more ⟨⟨[], [regex]⟩, []⟩) (rest : Text) :
    Regex.read dialect (front ++ rest) = Regex.read dialect (text ++ rest) := by
  have same := cuts rest
  unfold cut at same
  rw [Regex.read, Regex.read, same, item.cuts.cut, runs.run_append, (item.runs {}).run_append]
  rfl

def solid (branches : Branches) : List Regex := branches.pieces.reverse.filter (!·.isEmpty)

def paired (one other : Branches) : Regex := Branches.whole ⟨[], [other.whole, one.whole]⟩

/-- Whether two texts stand together as they would in groups. -/
def Separate (dialect : Dialect) (front back : Text) : Prop :=
  Joins dialect front back ∧
    (bars dialect front = 0 ∧ bars dialect back = 0 ∨
      Regex.read dialect front = .ok .empty ∨ Regex.read dialect back = .ok .empty)

section Pairs

variable {front back : Text} {one other : Branches}

theorem Spells.append (first : Spells dialect front one) (second : Spells dialect back other)
    (joins : Joins dialect front back) (fits : bars dialect back = 0 ∨ Blank one) :
    ∃ both, Spells dialect (front ++ back) both ∧ Onto one other both := by
  obtain ⟨last, runs, carried⟩ := Runs.carried second (.flat (.first [])) fits
  cases carried with
  | flat onto =>
    refine ⟨_, ?_, onto⟩
    rw [Spells, joins]
    exact Runs.append first runs
  | nested _ outside => cases outside

private theorem whole_of_done {branches : Branches} (done : branches.done = []) :
    branches.whole = seqAll (solid branches) := by
  simp [Branches.whole, done, altAll, Branches.current, solid]

private theorem paired_eq (one other : Branches) :
    paired one other = seqAll ([one.whole, other.whole].filter (!·.isEmpty)) :=
  whole_of_done rfl

private theorem ungrouped_of_onto {both : Branches} (onto : Onto one other both) (done : one.done = [])
    (done' : other.done = []) :
    Ungrouped (solid one) (solid other) both.whole (paired one other) := by
  have sides : solid both = solid one ++ solid other ∧ both.done = [] := by
    cases onto with
    | first pieces => exact ⟨by simp [solid], done⟩
    | later _ ended => exact absurd done' ended
  rw [paired_eq, whole_of_done done, whole_of_done done', whole_of_done sides.2, sides.1]
  refine ungrouped_seqAll fun regex member => ?_
  have kept : regex ∈ solid one ∨ regex ∈ solid other := List.mem_append.mp member
  simp only [solid, List.mem_filter, Bool.not_eq_true'] at kept
  exact kept.elim And.right And.right

theorem seqAll_filter_singleton (regex : Regex) : seqAll ([regex].filter (!·.isEmpty)) = regex := by
  by_cases empty : regex.isEmpty
  · rw [isEmpty_iff.mp empty]
    rfl
  · simp [empty, seqAll]

private theorem paired_of_blank (blank : Blank one) : paired one other = other.whole := by
  rw [paired_eq, whole_of_blank blank]
  exact seqAll_filter_singleton _

private theorem paired_of_blank' (blank : Blank other) : paired one other = one.whole := by
  have kept : [one.whole, .empty].filter (!·.isEmpty) = [one.whole].filter (!·.isEmpty) :=
    (List.filter_append [one.whole] [.empty]).trans (List.append_nil _)
  rw [paired_eq, whole_of_blank blank, kept]
  exact seqAll_filter_singleton _

/-- Texts that stand together as in groups are read as the pieces of both, without the groups. -/
theorem Separate.spells (separate : Separate dialect front back) (first : Spells dialect front one)
    (second : Spells dialect back other) :
    ∃ both, Spells dialect (front ++ back) both ∧
      Ungrouped (solid one) (solid other) both.whole (paired one other) := by
  obtain ⟨joins, unbarred | blank | blank⟩ := separate
  · obtain ⟨both, spells, onto⟩ := first.append second joins (.inl unbarred.2)
    refine ⟨both, spells, ungrouped_of_onto onto ?_ ?_⟩
    · exact List.length_eq_zero_iff.mp (first.length_done.trans unbarred.1)
    · exact List.length_eq_zero_iff.mp (second.length_done.trans unbarred.2)
  · have blank := first.blank_iff.mpr blank
    obtain ⟨both, spells, onto⟩ := first.append second joins (.inr blank)
    refine ⟨both, spells, ?_⟩
    rw [onto.whole_eq blank, paired_of_blank blank]
    exact .same _
  · have blank := second.blank_iff.mpr blank
    have unbarred : bars dialect back = 0 := by rw [← second.length_done, blank.1, List.length_nil]
    obtain ⟨both, spells, onto⟩ := first.append second joins (.inl unbarred)
    refine ⟨both, spells, ?_⟩
    rw [onto.whole_eq_of_blank blank, paired_of_blank' blank]
    exact .same _

private theorem signs_paired (one other : Branches) :
    (paired one other).signs = one.whole.signs ++ other.whole.signs := by
  simp [paired, signs_whole, spelled]

private theorem branches_paired (some : one.whole.isBlank = false) (some' : other.whole.isBlank = false) :
    (paired one other).branches = 1 := by
  have solid {regex : Regex} (some : regex.isBlank = false) : regex.isEmpty = false := by
    cases regex <;> first | rfl | cases some
  have kept : [one.whole, other.whole].filter (!·.isEmpty) = [one.whole, other.whole] := by
    simp [solid some, solid some']
  rw [paired_eq, kept]
  simp [seqAll, chain, Regex.branches, isBlank, some, some']

/-- Texts that are read as in groups stand together as in groups. -/
theorem separate_of_regrouped {regex : Regex} (first : Spells dialect front one) (second : Spells dialect back other)
    (reads : Regex.read dialect (front ++ back) = .ok regex) (same : Regrouped regex (paired one other)) :
    Separate dialect front back := by
  obtain ⟨both, spells, rfl⟩ := read_eq_ok_iff.mp reads
  -- What a regex spells does not tell how it is grouped, so it shows what the text was cut into.
  have closed : (cut dialect front).foldl opened [] = [] := (opened_of_runs first).symm
  have signs : bare [] (cut dialect (front ++ back)) = bare [] (cut dialect front ++ cut dialect back) := by
    rw [← spells.signs_eq, same.signs_eq, signs_paired, first.signs_eq, second.signs_eq, bare_append, closed]
  have joins : Joins dialect front back :=
    (tokens_append_or first.sound second.sound).resolve_right fun parted => bare_ne_of_parted parted [] signs
  refine ⟨joins, ?_⟩
  cases blank : one.whole.isBlank with
  | true => exact .inr (.inl (first.blank_iff.mp (first.blank blank)))
  | false =>
    cases blank' : other.whole.isBlank with
    | true => exact .inr (.inr (second.blank_iff.mp (second.blank blank')))
    | false =>
      -- Read in groups, the two texts are one branch. A bar of either of them would make a second one.
      have rest : Runs dialect ⟨one, []⟩ (cut dialect back) ⟨both, []⟩ := by
        rw [Spells, joins] at spells
        exact Runs.of_append first spells
      have ended : both.done.length = one.done.length + bars dialect back := rest.length_done
      have few := length_done_lt_branches both
      rw [same.branches_eq, branches_paired blank blank', ended, first.length_done] at few
      exact .inl ⟨by omega, by omega⟩

end Pairs

/-- A text, and one that is read as the same piece in any place. -/
structure Stands (dialect : Dialect) (text : Text) (inside : Branches) (whole : Text) : Prop where
  spells : Spells dialect text inside
  item : ∃ pieces, Item dialect whole pieces inside.whole ∧ nesting 0 (cut dialect text) ≤ nesting 0 pieces

theorem Stands.start : Stands dialect ['^'] ⟨[], [.atStart]⟩ ['^'] :=
  ⟨item_start.spells, _, item_start, by rw [cut, cutsItem_start.cuts.tokens_eq]⟩

theorem nesting_group {text : Text} {inside : Branches} (spells : Spells dialect text inside) (kind : Opening) :
    nesting 0 (cut dialect text) ≤ nesting 0 ([.opening kind] ++ cut dialect text ++ [.closing]) := by
  have deeper := (spells.frame [(kind, {})]).nesting_append [.closing]
  have mono := nesting_mono (Nat.zero_le 1) (cut dialect text)
  simp only [List.cons_append, List.nil_append, nesting]
  refine Nat.le_trans (Nat.le_trans mono ?_) (Nat.le_max_right ..)
  exact Nat.le_trans (Nat.le_max_left ..) (Nat.le_of_eq deeper.symm)

section Stands

variable {front back front' back' : Text} {one other : Branches}

theorem Stands.read_eq (left : Stands dialect front one front') (right : Stands dialect back other back') :
    Regex.read dialect (front' ++ back') = .ok (paired one other) := by
  obtain ⟨_, first, _⟩ := left.item
  obtain ⟨_, second, _⟩ := right.item
  exact (first.pair second).read_eq

theorem Stands.nesting_le (left : Stands dialect front one front') (right : Stands dialect back other back')
    (joins : Joins dialect front back) :
    nesting 0 (cut dialect (front ++ back)) ≤ nesting 0 (cut dialect (front' ++ back')) := by
  obtain ⟨pieces, first, shallow⟩ := left.item
  obtain ⟨more, second, shallow'⟩ := right.item
  have bare : nesting 0 (cut dialect front ++ cut dialect back) = _ :=
    Runs.nesting_append left.spells (cut dialect back)
  have full : nesting 0 (pieces ++ more) = _ := (first.runs {}).nesting_append more
  rw [joins, first.joins second, bare, full]
  exact Nat.max_le.mpr
    ⟨Nat.le_trans shallow (Nat.le_max_left ..), Nat.le_trans shallow' (Nat.le_max_right ..)⟩

end Stands

end FluentPattern.Proofs.TextPairs
