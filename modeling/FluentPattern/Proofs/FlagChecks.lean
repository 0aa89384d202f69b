import FluentPattern.Proofs.FlagRuns

/-! The check of flags. Flags are checked before the text is read, from the least letter on, so what is reported depends
on the letters alone: not on the text, and neither on the order of the letters nor on how often they stand there. -/

namespace FluentPattern

/-- The letters that the engine knows as flags. -/
def knownFlags : List Char := ['g', 'i', 'm', 's', 'u']

/-- The letters that are flags of the notation, but not of the engine. -/
def foreignFlags : List Char := ['d', 'v', 'y']

/-- Of the letters that are given, the least one that the engine does not know. -/
structure FirstUnknown (given : Char → Prop) (flag : Char) : Prop where
  present : given flag
  unknown : flag ∉ knownFlags
  least : ∀ other, given other → other ∉ knownFlags → flag.toNat ≤ other.toNat

theorem FirstUnknown.congr {given given' : Char → Prop} (same : ∀ c, given c ↔ given' c) {flag : Char} :
    FirstUnknown given flag ↔ FirstUnknown given' flag := by
  rw [show given = given' from funext fun c => propext (same c)]

theorem flagError?_of_known {flag : Char} (known : flag ∈ knownFlags) : flagError? flag = none := if_pos known

theorem flagError?_of_unknown {flag : Char} (unknown : flag ∉ knownFlags) :
    flagError? flag = some (if flag ∈ foreignFlags then .unsupportedFlag flag else .invalidFlag flag) := by
  have checked : flagError? flag =
      if flag ∈ foreignFlags then some (.unsupportedFlag flag) else some (.invalidFlag flag) := if_neg unknown
  rw [checked]
  split <;> rfl

theorem unknown_of_flagError? {flag : Char} {error : Error} (failed : flagError? flag = some error) :
    flag ∉ knownFlags := by
  intro known
  rw [flagError?_of_known known] at failed
  cases failed

namespace FlagSet

variable {flags : FlagSet} {error : Error}

/-- The letters ascend, so the first one that fails is the least one. -/
theorem error?_eq_some_iff :
    flags.error? = some error ↔ ∃ flag, FirstUnknown (flags.contains ·) flag ∧ flagError? flag = some error := by
  rw [error?, List.findSome?_eq_some_iff]
  constructor
  · rintro ⟨before, flag, after, same, failed, passed⟩
    have sorted := flags.ascending
    rw [same, List.pairwise_append, List.pairwise_cons] at sorted
    refine ⟨flag, ⟨by simp [contains, same], unknown_of_flagError? failed, fun other present unknown => ?_⟩, failed⟩
    have member : other ∈ before ++ flag :: after := by simpa [contains, same] using present
    rcases List.mem_append.mp member with earlier | later
    · have fine := passed other earlier
      rw [flagError?_of_unknown unknown] at fine
      cases fine
    · rcases List.mem_cons.mp later with rfl | later
      · exact Nat.le_refl _
      · exact Nat.le_of_lt (sorted.2.1.1 other later)
  · rintro ⟨flag, first, failed⟩
    obtain ⟨before, after, same⟩ := List.append_of_mem (by simpa [contains] using first.present)
    refine ⟨before, flag, after, same, failed, fun other earlier => ?_⟩
    have sorted := flags.ascending
    rw [same, List.pairwise_append] at sorted
    by_contra refused
    have unknown : other ∉ knownFlags := fun known => refused (flagError?_of_known known)
    have present : flags.contains other := by simp [contains, same, earlier]
    exact absurd (first.least other present unknown) (Nat.not_le.mpr (sorted.2.2 other earlier flag List.mem_cons_self))

theorem error?_eq_none_iff : flags.error? = none ↔ ∀ flag, flags.contains flag → flag ∈ knownFlags := by
  rw [error?, List.findSome?_eq_none_iff]
  constructor
  · intro passed flag present
    by_contra unknown
    have fine := passed flag (by simpa [contains] using present)
    rw [flagError?_of_unknown unknown] at fine
    cases fine
  · exact fun known flag member => flagError?_of_known (known flag (by simpa [contains] using member))

theorem contains_ofText {letters : Text} {letter : Char} : (ofText letters).contains letter ↔ letter ∈ letters := by
  simpa [contains] using mem_letters_ofText

theorem ofText_eq_of_mem {letters others : Text} (same : ∀ c, c ∈ letters ↔ c ∈ others) :
    ofText letters = ofText others := by
  rw [eq_iff_contains]
  intro c
  rw [Bool.eq_iff_iff, contains_ofText, contains_ofText, same]

end FlagSet

theorem FirstUnknown.exists_of_mem {flags : Text} {flag : Char} (present : flag ∈ flags)
    (unknown : flag ∉ knownFlags) : ∃ first, FirstUnknown (· ∈ flags) first := by
  cases checked : (FlagSet.ofText flags).error? with
  | none => exact absurd (FlagSet.error?_eq_none_iff.mp checked flag (FlagSet.contains_ofText.mpr present)) unknown
  | some error =>
    obtain ⟨first, least, -⟩ := FlagSet.error?_eq_some_iff.mp checked
    exact ⟨first, (FirstUnknown.congr fun c => FlagSet.contains_ofText).mp least⟩

namespace Pattern

variable {source flags others : Text} {error : Error}

theorem compile_congr (same : FlagSet.ofText flags = .ofText others) :
    compile source flags = compile source others := by
  unfold compile
  rw [same]

theorem compile_of_error? (failed : (FlagSet.ofText flags).error? = some error) :
    compile source flags = .error error := by
  unfold compile
  simp only
  split
  next other refused =>
    rw [failed] at refused
    cases refused
    rfl
  next passed =>
    rw [failed] at passed
    cases passed

theorem compile_eq_error_iff_of_ne (ofFlags : ∀ fault, error ≠ .malformed fault) :
    compile source flags = .error error ↔ (FlagSet.ofText flags).error? = some error := by
  refine ⟨fun refused => ?_, compile_of_error?⟩
  cases known : (FlagSet.ofText flags).error? with
  | some other =>
    rw [compile_of_error? known] at refused
    exact congrArg some (Except.error.inj refused)
  | none =>
    rw [compile_congr (FlagSet.ofText_letters _).symm, compile_eq_error_iff known] at refused
    obtain ⟨-, fault, same, -⟩ := refused
    exact absurd same (ofFlags fault)

theorem compile_eq_flagError_iff (ofFlags : ∀ fault, error ≠ .malformed fault) :
    compile source flags = .error error ↔
      ∃ flag, FirstUnknown (· ∈ flags) flag ∧
        error = if flag ∈ foreignFlags then .unsupportedFlag flag else .invalidFlag flag := by
  rw [compile_eq_error_iff_of_ne ofFlags, FlagSet.error?_eq_some_iff]
  refine exists_congr fun flag => ?_
  rw [FirstUnknown.congr fun c => FlagSet.contains_ofText]
  refine and_congr_right fun first => ?_
  rw [flagError?_of_unknown first.unknown, Option.some.injEq, eq_comm]

theorem compile_eq_unsupportedFlag_iff {flag : Char} :
    compile source flags = .error (.unsupportedFlag flag) ↔
      FirstUnknown (· ∈ flags) flag ∧ flag ∈ foreignFlags := by
  have ofFlags : ∀ fault, Error.unsupportedFlag flag ≠ .malformed fault := nofun
  rw [compile_eq_flagError_iff ofFlags]
  constructor
  · rintro ⟨other, first, same⟩
    split at same
    next foreign =>
      cases same
      exact ⟨first, foreign⟩
    next => cases same
  · rintro ⟨first, foreign⟩
    exact ⟨flag, first, (if_pos foreign).symm⟩

theorem compile_eq_invalidFlag_iff {flag : Char} :
    compile source flags = .error (.invalidFlag flag) ↔
      FirstUnknown (· ∈ flags) flag ∧ flag ∉ foreignFlags := by
  have ofFlags : ∀ fault, Error.invalidFlag flag ≠ .malformed fault := nofun
  rw [compile_eq_flagError_iff ofFlags]
  constructor
  · rintro ⟨other, first, same⟩
    split at same
    next => cases same
    next plain =>
      cases same
      exact ⟨first, plain⟩
  · rintro ⟨first, plain⟩
    exact ⟨flag, first, (if_neg plain).symm⟩

theorem compile_of_known (known : ∀ flag ∈ flags, flag ∈ knownFlags) :
    (∃ fault, compile source flags = .error (.malformed fault)) ∨
      ∃ pattern, compile source flags = .ok pattern ∧
        pattern.source = (if source = [] then emptyGroup else source) ∧ pattern.flags = .ofText flags := by
  cases compiled : compile source flags with
  | ok pattern => exact .inr ⟨pattern, rfl, compile_eq_ok_iff.mp compiled⟩
  | error error =>
    have passed : (FlagSet.ofText flags).error? = none :=
      FlagSet.error?_eq_none_iff.mpr fun flag present => known flag (FlagSet.contains_ofText.mp present)
    by_cases malformed : ∃ fault, error = .malformed fault
    · obtain ⟨fault, rfl⟩ := malformed
      exact .inl ⟨fault, rfl⟩
    · have refused := (compile_eq_error_iff_of_ne (not_exists.mp malformed)).mp compiled
      rw [passed] at refused
      cases refused

end Pattern

namespace Proofs.FlagChecks
open Pattern

/-- Compiling fails at the flags exactly if there is one that the engine does not know; the least of those is reported,
whatever the text is, as not supported if it is one of the notation and as invalid if it is not. Otherwise the text
decides, and texts of the same letters have the same outcome. A builder fails as a text of its flags does. -/
theorem flags_decide_first (source flags : Text) :
    ((∃ flag, compile source flags = .error (.unsupportedFlag flag) ∨
        compile source flags = .error (.invalidFlag flag)) ↔ ∃ flag ∈ flags, flag ∉ knownFlags) ∧
    (∀ flag,
      (compile source flags = .error (.unsupportedFlag flag) ↔ FirstUnknown (· ∈ flags) flag ∧ flag ∈ foreignFlags) ∧
      (compile source flags = .error (.invalidFlag flag) ↔ FirstUnknown (· ∈ flags) flag ∧ flag ∉ foreignFlags)) ∧
    ((∀ flag ∈ flags, flag ∈ knownFlags) →
      (∃ fault, compile source flags = .error (.malformed fault)) ∨
        ∃ pattern, compile source flags = .ok pattern ∧
          pattern.source = (if source = [] then emptyGroup else source) ∧ pattern.flags = .ofText flags) ∧
    (∀ others, (∀ c, c ∈ others ↔ c ∈ flags) → compile source others = compile source flags) ∧
    ∀ builder : Builder, (∀ c, c ∈ flags ↔ builder.flags.contains c) →
      builder.compile = compile builder.source flags := by
  refine ⟨⟨?_, ?_⟩, fun flag => ⟨compile_eq_unsupportedFlag_iff, compile_eq_invalidFlag_iff⟩, compile_of_known,
    fun others same => compile_congr (FlagSet.ofText_eq_of_mem same), fun builder same => ?_⟩
  · rintro ⟨flag, unsupported | invalid⟩
    · have first := (compile_eq_unsupportedFlag_iff.mp unsupported).1
      exact ⟨flag, first.present, first.unknown⟩
    · have first := (compile_eq_invalidFlag_iff.mp invalid).1
      exact ⟨flag, first.present, first.unknown⟩
  · rintro ⟨flag, present, unknown⟩
    obtain ⟨least, first⟩ := FirstUnknown.exists_of_mem present unknown
    refine ⟨least, ?_⟩
    by_cases foreign : least ∈ foreignFlags
    · exact .inl (compile_eq_unsupportedFlag_iff.mpr ⟨first, foreign⟩)
    · exact .inr (compile_eq_invalidFlag_iff.mpr ⟨first, foreign⟩)
  · apply compile_congr
    apply FlagSet.ofText_eq_of_mem
    intro c
    simp [same, FlagSet.contains]

/-- Letters out of order and twice, some unknown, with a text that cannot be read; and known ones with a builder. -/
theorem flags_decide_first_of_disorder :
    let letters := ['m', 'g', 'm']
    let builder := Builder.of (.text ['a'])
    compile ['('] ['z', 'y', 'g', 'z'] = .error (.unsupportedFlag 'y') ∧
      (∀ flag ∈ letters, flag ∈ knownFlags) ∧ (∀ c, c ∈ ['g', 'm'] ↔ c ∈ letters) ∧
      (∀ c, c ∈ letters ↔ builder.flags.contains c) ∧
      (∃ fault, compile ['('] letters = .error (.malformed fault)) ∧
      compile ['('] ['g', 'm'] = compile ['('] letters ∧ builder.compile = compile ['a'] letters := by
  intro letters builder
  have least : ∀ other ∈ ['z', 'y', 'g', 'z'], other ∉ knownFlags → 'y'.toNat ≤ other.toNat := by
    simp [knownFlags]
  have first : FirstUnknown (· ∈ ['z', 'y', 'g', 'z']) 'y' := ⟨by decide, by decide, least⟩
  have known : ∀ flag ∈ letters, flag ∈ knownFlags := by simp [letters, knownFlags]
  have same : ∀ c, c ∈ ['g', 'm'] ↔ c ∈ letters := by
    intro c
    simp only [letters, List.mem_cons, List.not_mem_nil, or_false]
    grind
  have given : ∀ c, c ∈ letters ↔ builder.flags.contains c := fun c => FlagSet.contains_ofText.symm
  obtain ⟨-, -, outcome, order, -⟩ := flags_decide_first ['('] letters
  refine ⟨?_, known, same, given, ?_, order _ same, ?_⟩
  · exact ((flags_decide_first ['('] _).2.1 'y').1.mpr ⟨first, by decide⟩
  · rcases outcome known with failed | ⟨pattern, compiled, -⟩
    · exact failed
    · cases compiled
  · exact (flags_decide_first [] letters).2.2.2.2 builder given

end Proofs.FlagChecks
end FluentPattern
