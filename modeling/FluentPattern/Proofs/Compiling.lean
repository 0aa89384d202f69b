import FluentPattern.Pattern

/-! When a text compiles, and to which pattern. A pattern is told by its text and its flags, so compiling is decided by
whether there is a pattern with them. What the limits ask of a sequence comes down to what they ask of its pieces. -/

namespace FluentPattern

namespace FlagSet

private theorem insertLetter_last {letter : Char} {letters : Text} (above : ∀ other ∈ letters, other < letter) :
    insertLetter letter letters = letters ++ [letter] := by
  induction letters with
  | nil => rfl
  | cons other letters ih =>
    have less := above other List.mem_cons_self
    have notLess : ¬letter < other := Char.lt_asymm less
    have different : letter ≠ other := fun same => Char.lt_irrefl _ (same ▸ less)
    have last := ih fun later member => above later (List.mem_cons_of_mem other member)
    rw [insertLetter, if_neg notLess, if_neg different, last]
    rfl

private theorem letters_union (flags : FlagSet) {added : Text} (ascending : (flags.letters ++ added).Pairwise (· < ·)) :
    (flags.union added).letters = flags.letters ++ added := by
  induction added generalizing flags with
  | nil => exact (List.append_nil _).symm
  | cons letter added ih =>
    have last : (flags.insert letter).letters = flags.letters ++ [letter] :=
      insertLetter_last fun other member =>
        (List.pairwise_append.mp ascending).2.2 other member letter List.mem_cons_self
    have rest := ih (flags.insert letter) (by simpa [last] using ascending)
    rw [last, List.append_assoc] at rest
    exact rest

theorem ofText_letters (flags : FlagSet) : ofText flags.letters = flags := by
  have same : (ofText flags.letters).letters = flags.letters := letters_union empty flags.ascending
  cases flags
  exact FlagSet.mk.injEq .. ▸ same

theorem mem_letters_ofText {letters : Text} {letter : Char} : letter ∈ (ofText letters).letters ↔ letter ∈ letters := by
  have inside : (ofText letters).contains letter = decide (letter ∈ letters) := by
    rw [ofText, contains_union]
    simp [contains, empty]
  simpa [contains] using inside

theorem error?_ofText {letters : Text} (known : ∀ letter ∈ letters, letter ∈ ['g', 'i', 'm', 's', 'u']) :
    (ofText letters).error? = none := by
  rw [error?, List.findSome?_eq_none_iff]
  exact fun letter member => if_pos (known letter (mem_letters_ofText.mp member))

end FlagSet

namespace Pattern

theorem eq_of_source {one other : Pattern} (source : one.source = other.source) (flags : one.flags = other.flags) :
    one = other := by
  obtain ⟨text, set, regex, _, _, reads, _⟩ := one
  obtain ⟨_, _, regex', _, _, reads', _⟩ := other
  obtain rfl : text = _ := source
  obtain rfl : set = _ := flags
  obtain rfl : regex = regex' := Except.ok.inj (reads.symm.trans reads')
  rfl

private theorem source_of_compile {source flags : Text} {pattern : Pattern}
    (compiled : compile source flags = .ok pattern) :
    pattern.source = (if source = [] then emptyGroup else source) ∧ pattern.flags = .ofText flags := by
  unfold compile at compiled
  simp only at compiled
  split at compiled
  · cases compiled
  · split at compiled
    next empty =>
      cases compiled
      exact ⟨(if_pos empty).symm, rfl⟩
    next nonempty =>
      split at compiled
      · cases compiled
      · split at compiled
        · cases compiled
        · cases compiled
          exact ⟨(if_neg nonempty).symm, rfl⟩

/-- A text compiles to the pattern with the same text and the same flags, if there is one. -/
theorem compile_eq_ok_iff {source flags : Text} {pattern : Pattern} :
    compile source flags = .ok pattern ↔
      pattern.source = (if source = [] then emptyGroup else source) ∧ pattern.flags = .ofText flags := by
  refine ⟨source_of_compile, fun ⟨same, sameFlags⟩ => ?_⟩
  have known : (FlagSet.ofText flags).error? = none := sameFlags ▸ pattern.flags_known
  suffices some : ∃ other, compile source flags = .ok other by
    obtain ⟨other, compiled⟩ := some
    obtain ⟨same', sameFlags'⟩ := source_of_compile compiled
    rw [compiled, eq_of_source (same.trans same'.symm) (sameFlags.trans sameFlags'.symm)]
  unfold compile
  simp only
  split
  next error failed => rw [known] at failed; cases failed
  · split
    · exact ⟨_, rfl⟩
    next nonempty =>
      rw [if_neg nonempty] at same
      split
      next fault failed =>
        have reads := pattern.read_source
        rw [same, failed] at reads
        cases reads
      next regex reads =>
        obtain rfl : regex = pattern.regex := by
          have reads' := pattern.read_source
          rw [same, reads] at reads'
          exact Except.ok.inj reads'
        split
        next fault failed =>
          have fits := pattern.within_limits
          rw [same, sameFlags, failed] at fits
          cases fits
        · exact ⟨_, rfl⟩

/-- A text with known flags does not compile if it is not read, or if what it is read as is too large. -/
theorem compile_eq_error_iff {source : Text} {flags : FlagSet} (known : flags.error? = none) {error : Error} :
    compile source flags.letters = .error error ↔ source ≠ [] ∧ ∃ fault, error = .malformed fault ∧
      (Regex.read .engine source = .error fault ∨
        ∃ regex, Regex.read .engine source = .ok regex ∧ Regex.limitFault? flags.mode source regex = some fault) := by
  rw [← FlagSet.ofText_letters flags] at known
  unfold compile
  simp only
  split
  next failed => rw [known] at failed; cases failed
  · split
    next empty => simp [empty]
    next nonempty =>
      split
      next fault reads => simp [nonempty, reads, eq_comm]
      next regex reads =>
        split
        next fault failed =>
          rw [FlagSet.ofText_letters] at failed
          simp [nonempty, reads, failed, eq_comm]
        next fits =>
          rw [FlagSet.ofText_letters] at fits
          simp [reads, fits]

end Pattern

namespace Regex

/-- Whether a fault lies in what a text says, not in how much of it there is. -/
def Fault.ofGrammar : Fault → Bool
  | .tooDeep | .tooLarge => false
  | _ => true

theorem nesting_items_append (depth : Nat) (regexes : List Regex) (rest : List Token) :
    nesting depth (regexes.map .item ++ rest) = nesting depth rest := by
  induction regexes with
  | nil => rfl
  | cons regex regexes ih => exact ih

theorem nesting_items (depth : Nat) (regexes : List Regex) : nesting depth (regexes.map .item) = depth := by
  have alone := nesting_items_append depth regexes []
  rwa [List.append_nil] at alone

section Chains

variable (mode : Mode) (regexes : List Regex)

theorem isPlain_chain : (chain regexes).isPlain = regexes.all isPlain := by
  induction regexes with
  | nil => rfl
  | cons regex regexes ih => simp [chain, isPlain, ih]

theorem hasReversedBounds_chain : (chain regexes).hasReversedBounds = regexes.any hasReversedBounds := by
  induction regexes with
  | nil => rfl
  | cons regex regexes ih => simp [chain, hasReversedBounds, ih]

theorem hasSmallCounts_chain : (chain regexes).hasSmallCounts = regexes.all hasSmallCounts := by
  induction regexes with
  | nil => rfl
  | cons regex regexes ih => simp [chain, hasSmallCounts, ih]

theorem heavySize_chain (light : ∀ regex ∈ regexes, regex.heavySize mode = 0) : (chain regexes).heavySize mode = 0 := by
  induction regexes with
  | nil => rfl
  | cons regex regexes ih =>
    have rest := ih fun other member => light other (List.mem_cons_of_mem _ member)
    rw [chain, heavySize, light regex List.mem_cons_self, rest]

theorem depth_chain_le {limit : Nat} (shallow : ∀ regex ∈ regexes, regex.depth mode .piece ≤ limit) :
    (chain regexes).depth mode .sequence ≤ limit := by
  induction regexes with
  | nil => exact Nat.zero_le limit
  | cons regex regexes ih =>
    exact Nat.max_le.mpr ⟨shallow regex List.mem_cons_self,
      ih fun other member => shallow other (List.mem_cons_of_mem regex member)⟩

end Chains

theorem framed_of_isPlain {regex : Regex} (plain : regex.isPlain) : regex.framed = .capture none regex := by
  have piece : ∀ piece ∈ regex.pieces, piece.isPlain := by
    induction regex with
    | empty => simp [pieces]
    | seq first rest _ ih =>
      simp only [isPlain, Bool.and_eq_true] at plain
      intro piece member
      rcases List.mem_cons.mp member with rfl | member
      · exact plain.1
      · exact ih plain.2 piece member
    | _ => simpa [pieces] using plain
  unfold framed
  split
  next last =>
    have look := piece _ (List.mem_of_getLast? last)
    cases look
  · rfl

private theorem check_eq_none_iff {check : Prop} [Decidable check] {fault : Fault} {later : Option Fault} :
    (if check then some fault else later) = none ↔ ¬check ∧ later = none := by
  split
  next failed => simp [failed]
  next passed => simp [passed]

theorem automatonFault?_eq_none_iff {mode : Mode} {regex : Regex} :
    automatonFault? mode regex = none ↔
      regex.hasReversedBounds = false ∧ regex.hasSmallCounts ∧ regex.heavySize mode ≤ memoryLimit ∧
        regex.depth mode .alone ≤ depthLimit := by
  simp [automatonFault?, check_eq_none_iff, and_assoc]

/-- A sequence of pieces that are neither repeated nor named by a letter fits, as long as the pieces are not deep. -/
theorem automatonFault?_capture_chain {mode : Mode} {regexes : List Regex} (nonempty : regexes ≠ [])
    (straight : ∀ regex ∈ regexes, regex.hasReversedBounds = false) (small : ∀ regex ∈ regexes, regex.hasSmallCounts)
    (light : ∀ regex ∈ regexes, regex.heavySize mode = 0)
    (shallow : ∀ regex ∈ regexes, regex.depth mode .piece < depthLimit - 2) :
    automatonFault? mode (.capture none (chain regexes)) = none := by
  have reversed : (Regex.capture none (chain regexes)).hasReversedBounds = false := by
    simpa [hasReversedBounds, hasReversedBounds_chain] using straight
  have counts : (Regex.capture none (chain regexes)).hasSmallCounts = true := by
    simpa [hasSmallCounts, hasSmallCounts_chain] using small
  have size : (Regex.capture none (chain regexes)).heavySize mode = 0 := heavySize_chain mode regexes light
  have levels : (Regex.capture none (chain regexes)).depth mode .alone ≤ depthLimit := by
    obtain ⟨regex, rest, rfl⟩ := List.exists_cons_of_ne_nil nonempty
    have inner := depth_chain_le mode (regex :: rest) fun other member => Nat.le_of_lt (shallow other member)
    simp only [chain, depth, depthLimit] at inner ⊢
    omega
  exact automatonFault?_eq_none_iff.mpr ⟨reversed, counts, size ▸ Nat.zero_le _, levels⟩

theorem plan_of_isPlain {regex : Regex} (plain : regex.isPlain) : regex.plan = .whole (.capture none regex) := by
  unfold plan planFor
  rw [framed_of_isPlain plain, if_pos (by simpa [isPlain] using plain)]

theorem limitFault?_eq_none_iff {mode : Mode} {source : Text} {regex : Regex} :
    limitFault? mode source regex = none ↔
      nesting 0 (tokens .engine (.outside .nothing) source) ≤ nestingLimit ∧
        ∀ part ∈ regex.plan.wholes, automatonFault? mode part = none := by
  simp [limitFault?, check_eq_none_iff]

end Regex

namespace Pattern

/-- A pattern means what its text is read as, also where the text is the empty one. -/
theorem read_of_compile {source flags : Text} {pattern : Pattern} (compiled : compile source flags = .ok pattern) :
    Regex.read .engine source = .ok pattern.regex := by
  have reads := pattern.read_source
  rw [(compile_eq_ok_iff.mp compiled).1] at reads
  by_cases empty : source = []
  · rw [if_pos empty] at reads
    rw [empty, ← reads]
    rfl
  · rwa [if_neg empty] at reads

theorem flags_of_compile {source : Text} {flags : FlagSet} {pattern : Pattern}
    (compiled : compile source flags.letters = .ok pattern) : pattern.flags = flags := by
  rw [(compile_eq_ok_iff.mp compiled).2, FlagSet.ofText_letters]

theorem exists_of_read {source : Text} {flags : FlagSet} {regex : Regex} (known : flags.error? = none)
    (reads : Regex.read .engine source = .ok regex) (fits : Regex.limitFault? flags.mode source regex = none) :
    ∃ pattern, compile source flags.letters = .ok pattern ∧ pattern.regex = regex ∧ pattern.flags = flags := by
  by_cases empty : source = []
  · subst empty
    obtain rfl : Regex.empty = regex := Except.ok.inj reads
    exact ⟨⟨emptyGroup, flags, .empty, by decide, known, rfl, rfl⟩,
      compile_eq_ok_iff.mpr ⟨rfl, (FlagSet.ofText_letters flags).symm⟩, rfl, rfl⟩
  · exact ⟨⟨source, flags, regex, empty, known, reads, fits⟩,
      compile_eq_ok_iff.mpr ⟨(if_neg empty).symm, (FlagSet.ofText_letters flags).symm⟩, rfl, rfl⟩

end Pattern
end FluentPattern
