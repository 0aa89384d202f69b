import FluentPattern.Builder.Step
import FluentPattern.Proofs.DisplayedLiterals

/-! What patterns and builders show. A literal that compiles is shown with the same text between the slashes, unless that
is empty, and with its flags in order; what is shown compiles to the same pattern, so it is shown as it is. A builder
shows the text that it compiles from, which is empty where its tree has leaves, but none with a character, and nothing
stands around it. A pattern is never shown so: it has the group that stands for no text. -/

namespace FluentPattern

theorem Repetition.text_ne_nil (times : Repetition) : times.text ≠ [] := by
  cases times with
  | zeroOrMore greed => cases greed <;> simp [text]
  | optional | oneOrMore | between | exactly => simp [text]

namespace Node

/-- A tree of which nothing is written: nothing at all, or raw text of no characters, however often in sequence. -/
inductive Textless : Node → Prop where
  | empty : Textless .empty
  | exact : Textless (.exact [])
  | sequence {first second : Node} (left : Textless first) (right : Textless second) :
    Textless (.sequence first second)

/-- A choice is not without text, so no group is put around a side that is. -/
private theorem side_eq_nil_iff (node : Node) :
    (if node.isChoice then grouped node.render else node.render) = [] ↔ node.render = [] := by
  cases node with
  | choice => simp [isChoice, render, grouped]
  | _ => rfl

theorem render_eq_nil_iff {node : Node} : node.render = [] ↔ node.Textless := by
  induction node with
  | empty => exact iff_of_true rfl .empty
  | exact text =>
    refine ⟨fun none => ?_, fun textless => ?_⟩
    · obtain rfl : text = [] := none
      exact .exact
    · cases textless
      rfl
  | sequence first second left right =>
    rw [render, List.append_eq_nil_iff, side_eq_nil_iff, side_eq_nil_iff, left, right]
    refine ⟨fun sides => .sequence sides.1 sides.2, fun textless => ?_⟩
    cases textless with
    | sequence first second => exact ⟨first, second⟩
  | oneOf | choice | lookahead | capture => exact iff_of_false (by simp [render]) (by rintro ⟨⟩)
  | repeated body times => exact iff_of_false (by simp [render, times.text_ne_nil]) (by rintro ⟨⟩)

end Node

namespace Builder

variable {builder : Builder}

/-- Whether nothing is written for a builder, although its tree is not the empty one, for which a group is written. -/
structure Unwritten (builder : Builder) : Prop where
  front : builder.front = []
  back : builder.back = []
  nonempty : builder.node ≠ .empty
  textless : builder.node.Textless

private theorem isAnchored_eq_false_iff : builder.isAnchored = false ↔ builder.front = [] ∧ builder.back = [] := by
  simp [isAnchored]

theorem source_of_empty (bare : builder.isAnchored = false) (none : builder.node = .empty) :
    builder.source = emptyGroup := by
  simp [source, bare, none, Node.isEmpty]

theorem source_eq_nil_iff : builder.source = [] ↔ builder.Unwritten := by
  cases anchored : builder.isAnchored with
  | false =>
    obtain ⟨front, back⟩ := isAnchored_eq_false_iff.mp anchored
    by_cases none : builder.node = .empty
    · rw [source_of_empty anchored none]
      exact iff_of_false (by decide) fun unwritten => unwritten.nonempty none
    · have solid : builder.node.isEmpty = false := by cases node : builder.node <;> simp_all [Node.isEmpty]
      have written : builder.source = builder.node.render := by simp [source, anchored, solid, front, back]
      rw [written, Node.render_eq_nil_iff]
      exact ⟨fun textless => ⟨front, back, none, textless⟩, Unwritten.textless⟩
  | true =>
    have bare : builder.front = [] ∧ builder.back = [] → False := by
      rw [← isAnchored_eq_false_iff, anchored]
      decide
    refine iff_of_false (fun none => bare ?_) fun unwritten => bare ⟨unwritten.front, unwritten.back⟩
    rw [source, anchored, Bool.not_true, Bool.and_false, if_neg Bool.false_ne_true, List.append_eq_nil_iff,
      List.append_eq_nil_iff] at none
    exact ⟨none.1.1, none.2⟩

end Builder

namespace Proofs.ShownPatterns
open LiteralGrammar DisplayedLiterals

theorem parse_eq_ok_iff {text : Text} {literal : Literal} :
    Literal.parse text = .ok literal ↔ Splits text literal.source literal.flags := by
  rw [LiteralGrammar.parse_eq]
  constructor
  · intro parsed
    split at parsed
    next reads =>
      cases parsed
      exact splits_of_readAt reads
    next => cases parsed
  · intro splits
    rw [readAt_of_splits splits]

theorem exists_splits {text : Text} {pattern : Pattern} (parsed : Pattern.parse text = .ok pattern) :
    ∃ source flags, Splits text source flags ∧ Pattern.compile source flags = .ok pattern := by
  unfold Pattern.parse at parsed
  split at parsed
  next literal reads => exact ⟨literal.source, literal.flags, parse_eq_ok_iff.mp reads, parsed⟩
  next => cases parsed

private theorem body_shown {source : Text} (body : Body source) :
    Body (if source = [] then emptyGroup else source) := by
  split
  · exact ⟨[['('], ['?'], [':'], [')']], by simp [Item.plain], rfl⟩
  · exact body

theorem splits_literal (pattern : Pattern) (body : Body pattern.source) :
    Splits pattern.literal pattern.source pattern.flags.letters :=
  ⟨by simp [Pattern.literal], body, flags_of_known pattern.flags_known⟩

theorem compile_source (pattern : Pattern) : Pattern.compile pattern.source pattern.flags.letters = .ok pattern :=
  Pattern.compile_eq_ok_iff.mpr ⟨(if_neg pattern.source_ne_nil).symm, (FlagSet.ofText_letters _).symm⟩

theorem letters_perm {flags : Text} (valid : Flags flags) : (FlagSet.ofText flags).letters.Perm flags := by
  have once : (FlagSet.ofText flags).letters.Nodup :=
    (FlagSet.ofText flags).ascending.imp fun less => Char.ne_of_lt less
  rw [List.perm_ext_iff_of_nodup once valid.1]
  exact fun _ => FlagSet.mem_letters_ofText

/-- The pattern of a literal is shown as a literal that has the same body, or the group that stands for no text in place
of an empty one, and the same flags in ascending order. Such a literal is split into just these parts and compiles to the
pattern that it shows. -/
theorem parsed_shown {text : Text} {pattern : Pattern} (parsed : Pattern.parse text = .ok pattern) :
    ∃ body flags letters,
      Splits text body flags ∧ letters.Perm flags ∧ letters.Pairwise (· < ·) ∧
      pattern.literal = ['/'] ++ (if body = [] then ['(', '?', ':', ')'] else body) ++ ['/'] ++ letters ∧
      Literal.parse pattern.literal = .ok ⟨pattern.source, letters⟩ ∧
      ∃ again, Pattern.parse pattern.literal = .ok again ∧ again = pattern ∧ again.literal = pattern.literal := by
  obtain ⟨body, flags, splits, compiled⟩ := exists_splits parsed
  obtain ⟨source, sameFlags⟩ := Pattern.compile_eq_ok_iff.mp compiled
  have reads : Literal.parse pattern.literal = .ok ⟨pattern.source, pattern.flags.letters⟩ :=
    parse_eq_ok_iff.mpr (splits_literal pattern (source ▸ body_shown splits.2.1))
  refine ⟨body, flags, pattern.flags.letters, splits, ?_, pattern.flags.ascending, ?_, reads, pattern, ?_, rfl, rfl⟩
  · rw [sameFlags]
    exact letters_perm splits.2.2
  · rw [Pattern.literal, source]
    rfl
  · rw [Pattern.parse, reads]
    exact compile_source pattern

/-- A slash in a class does not end the body, and the flags are out of order. -/
theorem parsed_shown_of_class :
    ∃ pattern, Pattern.parse ['/', '[', '/', ']', '/', 'm', 'g'] = .ok pattern ∧
      ∃ body flags letters,
        Splits ['/', '[', '/', ']', '/', 'm', 'g'] body flags ∧ letters.Perm flags ∧ letters.Pairwise (· < ·) ∧
        pattern.literal = ['/'] ++ (if body = [] then ['(', '?', ':', ')'] else body) ++ ['/'] ++ letters ∧
        Literal.parse pattern.literal = .ok ⟨pattern.source, letters⟩ ∧
        ∃ again, Pattern.parse pattern.literal = .ok again ∧ again = pattern ∧ again.literal = pattern.literal := by
  cases parsed : Pattern.parse ['/', '[', '/', ']', '/', 'm', 'g'] with
  | error => cases parsed
  | ok pattern => exact ⟨pattern, rfl, parsed_shown parsed⟩

/-- A pattern is shown as the builder it is compiled from, which may be any builder, whatever steps it was made in. There
is one exception: where nothing is written for a tree that is not the empty one, the builder shows an empty text and the
pattern the group that stands for no text. What the builder shows then compiles to the pattern nevertheless. -/
theorem shown_as_compiled {builder : Builder} {pattern : Pattern} (compiled : builder.compile = .ok pattern) :
    pattern.flags = builder.flags ∧ pattern.source ≠ [] ∧
    (¬builder.Unwritten → pattern.source = builder.source ∧ pattern.literal = builder.literal) ∧
    (builder.Unwritten →
      builder.source = [] ∧ pattern.source = emptyGroup ∧
      builder.literal = ['/', '/'] ++ builder.flags.letters ∧
      pattern.literal = ['/', '(', '?', ':', ')', '/'] ++ builder.flags.letters ∧
      Pattern.parse builder.literal = .ok pattern) ∧
    (builder.isAnchored = false → builder.node = .empty → builder.source = emptyGroup) := by
  have source := (Pattern.compile_eq_ok_iff.mp compiled).1
  have flags : pattern.flags = builder.flags := Pattern.flags_of_compile compiled
  refine ⟨flags, pattern.source_ne_nil, fun written => ?_, fun unwritten => ?_, Builder.source_of_empty⟩
  · rw [← Builder.source_eq_nil_iff] at written
    rw [if_neg written] at source
    exact ⟨source, by rw [Pattern.literal, Builder.literal, source, flags]⟩
  · have none := Builder.source_eq_nil_iff.mpr unwritten
    have body : Body builder.source := none ▸ ⟨[], by simp, rfl⟩
    rw [if_pos none] at source
    refine ⟨none, source, by simp [Builder.literal, none], ?_, ?_⟩
    · simp [Pattern.literal, source, flags, emptyGroup, grouped]
    · rw [parse_of_body (flags ▸ pattern.flags_known) body, compiled]

/-- An empty text behind an empty text. -/
theorem shown_as_compiled_of_blanks :
    ∃ builder pattern,
      (Builder.of (.text [])).run [.append (.text []), .singleLine true] = .ok builder ∧
      builder.compile = .ok pattern ∧ builder.Unwritten ∧ builder.literal = ['/', '/', 'g'] ∧
      pattern.literal = ['/', '(', '?', ':', ')', '/', 'g'] ∧ Pattern.parse builder.literal = .ok pattern := by
  let pattern : Pattern := ⟨emptyGroup, .ofText ['g'], .empty, by decide, by decide, rfl, rfl⟩
  let builder : Builder := ⟨[], .sequence (.exact []) (.exact []), [], .ofText ['g']⟩
  have compiled : builder.compile = .ok pattern := Pattern.compile_eq_ok_iff.mpr ⟨rfl, rfl⟩
  have unwritten : builder.Unwritten := ⟨rfl, rfl, nofun, .sequence .exact .exact⟩
  obtain ⟨-, -, -, shown, -⟩ := shown_as_compiled compiled
  obtain ⟨-, -, literal, literal', parsed⟩ := shown unwritten
  exact ⟨builder, pattern, rfl, compiled, unwritten, literal, literal', parsed⟩

/-- The builder of the empty text shows no text, and its pattern shows a group. -/
theorem empty_text_shown_without_group :
    ∃ pattern, (Builder.of (.text [])).compile = .ok pattern ∧
      (Builder.of (.text [])).source = [] ∧ pattern.source = ['(', '?', ':', ')'] ∧
      (Builder.of (.text [])).literal = ['/', '/', 'g', 'm'] ∧
      pattern.literal = ['/', '(', '?', ':', ')', '/', 'g', 'm'] := by
  let pattern : Pattern := ⟨emptyGroup, .standard, .empty, by decide, by decide, rfl, rfl⟩
  exact ⟨pattern, Pattern.compile_eq_ok_iff.mpr ⟨rfl, rfl⟩, rfl, rfl, rfl, rfl⟩

end Proofs.ShownPatterns
end FluentPattern
