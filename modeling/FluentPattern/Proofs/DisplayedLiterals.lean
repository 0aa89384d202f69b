import FluentPattern.Proofs.LiteralGrammar
import FluentPattern.Proofs.TextCompiling

/-! Builders as literals. What a builder shows is its pattern text between slashes, and its flags. Such a literal reads
back only where the pattern text is the body of a literal, which is not asked of pattern texts: escaping leaves slashes
and line breaks as they are. -/

namespace FluentPattern.Proofs.DisplayedLiterals
open LiteralGrammar TextCompiling

theorem flags_of_known {flags : FlagSet} (known : flags.error? = none) : Flags flags.letters := by
  refine ⟨flags.ascending.imp fun less => ?_, fun letter member => ?_⟩
  · rintro rfl
    exact Char.lt_irrefl _ less
  · have fine := List.findSome?_eq_none_iff.mp known letter member
    unfold flagError? at fine
    split at fine
    next engine =>
      simp only [List.mem_cons, List.not_mem_nil, or_false] at engine
      rcases engine with rfl | rfl | rfl | rfl | rfl <;> rfl
    next => split at fine <;> cases fine

private theorem slash_not_mem {flags : Text} (valid : Flags flags) : '/' ∉ flags := by
  intro slash
  cases valid.2 _ slash

/-- The flags hold no slash, so the last slash of a literal tells its parts. -/
private theorem parts_of_eq {source source' flags flags' : Text} (valid : Flags flags) (valid' : Flags flags')
    (same : source ++ '/' :: flags = source' ++ '/' :: flags') : source = source' ∧ flags = flags' := by
  rcases List.append_eq_append_iff.mp same with ⟨between, first, second⟩ | ⟨between, first, second⟩
  · cases between with
    | nil => exact ⟨by simpa using first.symm, (List.cons.inj second).2⟩
    | cons c between => exact absurd (by simp [(List.cons.inj second).2]) (slash_not_mem valid)
  · cases between with
    | nil => exact ⟨by simpa using first, (List.cons.inj second).2.symm⟩
    | cons c between => exact absurd (by simp [(List.cons.inj second).2]) (slash_not_mem valid')

/-- What a builder shows is a literal exactly if its pattern text is the body of one, and is then split into the pattern
text and the flags. -/
theorem parse_literal_eq_ok_iff {builder : Builder} (known : builder.flags.error? = none) {literal : Literal} :
    Literal.parse builder.literal = .ok literal ↔
      literal = ⟨builder.source, builder.flags.letters⟩ ∧ Body builder.source := by
  have shown : builder.literal = '/' :: builder.source ++ '/' :: builder.flags.letters := by simp [Builder.literal]
  have valid := flags_of_known known
  rw [LiteralGrammar.parse_eq]
  constructor
  · intro parsed
    split at parsed
    next reads =>
      cases parsed
      obtain ⟨same, body, valid'⟩ := splits_of_readAt reads
      rw [shown] at same
      obtain ⟨source, flags⟩ := parts_of_eq valid valid' (List.cons.inj same).2
      rw [source, flags]
      exact ⟨rfl, body⟩
    next => cases parsed
  · rintro ⟨rfl, body⟩
    rw [readAt_of_splits ⟨shown, body, valid⟩]

theorem parse_of_body {builder : Builder} (known : builder.flags.error? = none) (body : Body builder.source) :
    Pattern.parse builder.literal = builder.compile := by
  rw [Pattern.parse, (parse_literal_eq_ok_iff known).mpr ⟨rfl, body⟩]
  rfl

private theorem parse_of_not_body {builder : Builder} (known : builder.flags.error? = none)
    (invalid : ¬Body builder.source) :
    ∃ fault, Pattern.parse builder.literal = .error (.invalidLiteral builder.literal fault) := by
  have refused := LiteralGrammar.parse_eq builder.literal
  split at refused
  next => exact absurd ((parse_literal_eq_ok_iff known).mp refused).2 invalid
  next fault _ => exact ⟨fault, by rw [Pattern.parse, refused]⟩

private theorem tail_escape_iff {c : Char} {rest : Text} : Tail false ('\\' :: c :: rest) ↔ Tail false rest := by
  constructor
  · intro tail
    cases tail with
    | escape _ later => exact later
    | outside allowed => simp at allowed
  · exact .escape c

private theorem tail_plain_iff {c : Char} (plain : c ∉ ['\\', '[']) {rest : Text} :
    Tail false (c :: rest) ↔ c ∉ ['/', '\n', '\r'] ∧ Tail false rest := by
  constructor
  · intro tail
    cases tail with
    | escape => simp at plain
    | enter => simp at plain
    | outside allowed later => exact ⟨by grind, later⟩
  · rintro ⟨allowed, later⟩
    exact .outside (by grind) later

/-- An escaped text is the body of a literal unless it has a character that is escaped in literals only. -/
theorem body_escapeEach {text : Text} :
    Body (Text.escapeEach Text.patternSpecials text) ↔ ∀ c ∈ text, c ∉ ['/', '\n', '\r'] := by
  rw [← tail_iff_body]
  induction text with
  | nil => simpa using Tail.nil
  | cons c text ih =>
    rw [List.forall_mem_cons, ← ih, Text.escapeEach_cons]
    split
    next special =>
      have harmless : c ∉ ['/', '\n', '\r'] := by
        intro sign
        simp only [List.mem_cons, List.not_mem_nil, or_false] at sign
        rcases sign with rfl | rfl | rfl <;> simp [Text.patternSpecials] at special
      rw [List.cons_append, List.singleton_append, tail_escape_iff]
      exact (and_iff_right harmless).symm
    next plain => exact tail_plain_iff (by simp_all [Text.patternSpecials])

theorem mem_collapseBackslashes {text : Text} {c : Char} : c ∈ text.collapseBackslashes ↔ c ∈ text := by
  induction text with
  | nil => rfl
  | cons d text ih =>
    unfold Text.collapseBackslashes
    split
    next run =>
      obtain ⟨rest, rfl⟩ := List.head?_eq_some_iff.mp run.2
      rw [ih, run.1]
      simp
    next => simp [ih]

/-- A text that is shown as a literal reads back as what it compiles to, and is split into its pattern text and its
flags, exactly if it has neither a slash nor a line break. If it has one, what is shown is not a literal. -/
theorem parse_shown_iff (text : Text) :
    ∃ pattern, (Builder.of (.text text)).compile = .ok pattern ∧
      (Pattern.parse (Builder.of (.text text)).literal = .ok pattern ↔ ∀ c ∈ text, c ∉ ['/', '\n', '\r']) ∧
      (Literal.parse (Builder.of (.text text)).literal =
          .ok ⟨(Builder.of (.text text)).source, (Builder.of (.text text)).flags.letters⟩ ↔
        ∀ c ∈ text, c ∉ ['/', '\n', '\r']) ∧
      ((¬∀ c ∈ text, c ∉ ['/', '\n', '\r']) →
        ∃ fault, Pattern.parse (Builder.of (.text text)).literal =
          .error (.invalidLiteral (Builder.of (.text text)).literal fault)) := by
  have known : (Builder.of (.text text)).flags.error? = none := by
    change FlagSet.standard.error? = none
    decide
  have body : Body (Builder.of (.text text)).source ↔ ∀ c ∈ text, c ∉ ['/', '\n', '\r'] := by
    have escaped : (Builder.of (.text text)).source = _ := source_text [] text [] .standard
    rw [escaped, List.nil_append, List.append_nil, Text.escapeForPattern, body_escapeEach]
    simp only [mem_collapseBackslashes]
  obtain ⟨pattern, compiles⟩ : ∃ pattern, (Builder.of (.text text)).compile = .ok pattern :=
    compile_text (by simp) (by simp) text known
  rw [← body]
  refine ⟨pattern, compiles, ⟨fun parsed => ?_, fun valid => ?_⟩, ?_, parse_of_not_body known⟩
  · refine Classical.byContradiction fun invalid => ?_
    obtain ⟨fault, refused⟩ := parse_of_not_body known invalid
    rw [refused] at parsed
    cases parsed
  · rw [parse_of_body known valid, compiles]
  · rw [parse_literal_eq_ok_iff known]
    exact and_iff_right rfl

theorem slash_not_shown :
    ¬∃ pattern, (Builder.of (.text ['a', '/', 'b'])).compile = .ok pattern ∧
      Pattern.parse (Builder.of (.text ['a', '/', 'b'])).literal = .ok pattern := by
  rintro ⟨pattern, -, parsed⟩
  cases parsed

end FluentPattern.Proofs.DisplayedLiterals
