import FluentPattern.Builder.Step
import FluentPattern.Proofs.TextCompiling

/-! Compiled patterns as builders. A pattern text is split from its two ends: an anchor at the start shows at once, but
the sign at the end is an anchor only if it is not escaped, which is told by the number of backslashes before it. Read
from the left, the same text is a sequence of escapes and of single characters. Both ways agree on what stands last, so
nothing is lost or moved when a pattern is taken apart and built again, nor when a text is built and taken apart. -/

namespace FluentPattern.Proofs.TakingApart
open TextCompiling

/-- A text from left to right: each backslash with the character after it, and all other characters alone. -/
def glyphs : Text → List Text
  | '\\' :: c :: rest => ['\\', c] :: glyphs rest
  | c :: rest => [c] :: glyphs rest
  | [] => []

theorem glyphs_cons {c : Char} (plain : c ≠ '\\') (rest : Text) : glyphs (c :: rest) = [c] :: glyphs rest := by
  rw [glyphs]
  intro _ _ escape
  exact absurd escape plain

theorem flatten_glyphs (text : Text) : (glyphs text).flatten = text := by
  fun_induction glyphs text with
  | case1 c rest ih => simp [ih]
  | case2 c rest _ ih => simp [ih]
  | case3 => rfl

private theorem glyphs_concat_ne_nil (text : Text) (c : Char) : glyphs (text ++ [c]) ≠ [] := by
  intro none
  have whole := flatten_glyphs (text ++ [c])
  simp [none] at whole

/-- A stretch of backslashes at the end does not depend on what stands before another character, and two backslashes
more make no difference to whether its length is odd. -/
private theorem endsEscaping_concat (backwards : List Char) (c : Char) :
    Builder.endsEscaping (backwards ++ [c, '\\']) = Builder.endsEscaping backwards := by
  simp only [Builder.endsEscaping, List.takeWhile_append]
  split
  next all =>
    by_cases escape : c = '\\'
    · simp [escape, all]
    · simp [escape, all]
  next => rfl

private theorem endsEscaping_plain (backwards : List Char) {c : Char} (plain : c ≠ '\\') :
    Builder.endsEscaping (backwards ++ [c]) = Builder.endsEscaping backwards := by
  simp only [Builder.endsEscaping, List.takeWhile_append]
  split
  next all => simp [plain, all]
  next => rfl

/-- The last character of a text belongs to an escape exactly if an odd number of backslashes stands before it. -/
theorem getLast?_glyphs_concat (text : Text) (c : Char) :
    (glyphs (text ++ [c])).getLast? = some (if Builder.endsEscaping text.reverse then ['\\', c] else [c]) := by
  -- Glyphs are taken off from the left, and what is taken off does not change the parity of the stretch at the end.
  fun_induction glyphs text with
  | case1 d rest ih =>
    rw [List.cons_append, List.cons_append, glyphs, List.getLast?_cons_of_ne_nil (glyphs_concat_ne_nil rest c), ih]
    simp [endsEscaping_concat]
  | case2 d rest alone ih =>
    by_cases escape : d = '\\'
    · subst escape
      obtain rfl : rest = [] := by
        cases rest with
        | nil => rfl
        | cons next rest => exact (alone next rest rfl rfl).elim
      rfl
    · rw [List.cons_append, glyphs_cons escape, List.getLast?_cons_of_ne_nil (glyphs_concat_ne_nil rest c), ih]
      simp [endsEscaping_plain _ escape]
  | case3 =>
    by_cases escape : c = '\\'
    · simp [glyphs, Builder.endsEscaping]
    · simp [glyphs, Builder.endsEscaping]

theorem splitFront_fst (text : Text) :
    (Builder.splitFront text).1 = if text.head? = some '^' then ['^'] else [] := by
  unfold Builder.splitFront
  split
  next => rfl
  next plain =>
    rw [if_neg]
    intro head
    obtain ⟨rest, rfl⟩ := List.head?_eq_some_iff.mp head
    exact plain rest rfl

theorem splitFront_append (text : Text) : (Builder.splitFront text).1 ++ (Builder.splitFront text).2 = text := by
  unfold Builder.splitFront
  split <;> rfl

theorem splitBack_snd (text : Text) :
    (Builder.splitBack text).2 = if (glyphs text).getLast? = some ['$'] then ['$'] else [] := by
  rcases List.eq_nil_or_concat text with rfl | ⟨text, c, rfl⟩
  · rfl
  · rw [List.concat_eq_append, getLast?_glyphs_concat, Builder.splitBack, List.reverse_concat]
    by_cases sign : c = '$'
    · subst sign
      cases escaping : Builder.endsEscaping text.reverse <;> simp [escaping]
    · split
      next same => exact absurd (List.cons.inj same).1 sign
      next => cases escaping : Builder.endsEscaping text.reverse <;> simp [sign]

theorem splitBack_append (text : Text) : (Builder.splitBack text).1 ++ (Builder.splitBack text).2 = text := by
  unfold Builder.splitBack
  split
  next backwards same =>
    split
    next => simp
    next => simpa using congrArg List.reverse same.symm
  next => simp

/-- What a pattern text has to split: nothing, where it is the group that stands for no text. -/
def content (source : Text) : Text := if source = emptyGroup then [] else source

private theorem content_compiled (source : Text) :
    content (if source = [] then emptyGroup else source) = content source := by
  split
  next none => rw [none]; rfl
  next => rfl

theorem of_pattern (pattern : Pattern) :
    Builder.of (.pattern pattern) =
      ⟨(Builder.splitFront (content pattern.source)).1,
        .exact (Builder.splitBack (Builder.splitFront (content pattern.source)).2).1,
        (Builder.splitBack (Builder.splitFront (content pattern.source)).2).2, pattern.flags⟩ := by
  simp [Builder.of, Builder.ofPattern, Builder.ofOptions, BuilderOptions.body, content, FlagSet.ofText_letters]

theorem source_exact (front body back : Text) (flags : FlagSet) :
    Builder.source ⟨front, .exact body, back, flags⟩ = front ++ body ++ back := by
  simp [Builder.source, Node.isEmpty, Node.isChoice, Node.render]

private theorem head?_content (source : Text) : (content source).head? = some '^' ↔ source.head? = some '^' := by
  unfold content
  split
  next group => simp [group, emptyGroup, grouped]
  next => rfl

private theorem getLast?_glyphs_content (source : Text) :
    (glyphs (content source)).getLast? = some ['$'] ↔ (glyphs source).getLast? = some ['$'] := by
  unfold content
  split
  next group => simp [group, emptyGroup, grouped, glyphs]
  next => rfl

private theorem getLast?_glyphs_splitFront (text : Text) :
    (glyphs (Builder.splitFront text).2).getLast? = some ['$'] ↔ (glyphs text).getLast? = some ['$'] := by
  unfold Builder.splitFront
  split
  next body =>
    rw [glyphs_cons (by decide)]
    cases glyphs body <;> simp [List.getLast?_cons_cons]
  next => rfl

/-- A pattern is taken apart into its text in three parts, of which the outer ones are anchors. -/
theorem exists_parts (pattern : Pattern) :
    ∃ front body back, Builder.of (.pattern pattern) = ⟨front, .exact body, back, pattern.flags⟩ ∧
      front = (if pattern.source.head? = some '^' then ['^'] else []) ∧
      back = (if (glyphs pattern.source).getLast? = some ['$'] then ['$'] else []) ∧
      front ++ body ++ back = content pattern.source := by
  refine ⟨_, _, _, of_pattern pattern, ?_, ?_, ?_⟩
  · simpa only [head?_content] using splitFront_fst (content pattern.source)
  · simpa only [getLast?_glyphs_splitFront, getLast?_glyphs_content] using
      splitBack_snd (Builder.splitFront (content pattern.source)).2
  · rw [List.append_assoc, splitBack_append, splitFront_append]

private theorem compile_parts {pattern : Pattern} {front body back : Text}
    (whole : front ++ body ++ back = content pattern.source) :
    Builder.compile ⟨front, .exact body, back, pattern.flags⟩ = .ok pattern := by
  rw [Builder.compile, source_exact, whole, Pattern.compile_eq_ok_iff, FlagSet.ofText_letters]
  refine ⟨?_, rfl⟩
  unfold content
  split
  next group => simpa using group
  next => exact (if_neg pattern.source_ne_nil).symm

/-- An escape at the end of a text is longer than an anchor at the start, so it lies behind it. -/
private theorem escape_in_body {source body : Text} {c : Char} (last : (glyphs source).getLast? = some ['\\', c])
    (whole : (if source.head? = some '^' then ['^'] else []) ++ body = source) : ['\\', c] <:+ body := by
  obtain ⟨earlier, same⟩ := List.getLast?_eq_some_iff.mp last
  have text := flatten_glyphs source
  rw [same, List.flatten_concat] at text
  have ending : ['\\', c] <:+ source := ⟨_, text⟩
  rw [← whole] at ending
  split at ending
  next =>
    rcases List.suffix_cons_iff.mp ending with same | inside
    · cases same
    · exact inside
  next => exact ending

/-- A compiled pattern is taken apart into a builder that compiles to the same pattern. The anchor at the start is the
sign that the text starts with, and the anchor at the end is the last glyph of the text, if that is the sign alone: an
escaped sign stays in the body, and a sign after an escaped backslash leaves it. -/
theorem compile_ofPattern (pattern : Pattern) :
    ∃ front body back, Builder.of (.pattern pattern) = ⟨front, .exact body, back, pattern.flags⟩ ∧
      (Builder.of (.pattern pattern)).compile = .ok pattern ∧
      front = (if pattern.source.head? = some '^' then ['^'] else []) ∧
      back = (if (glyphs pattern.source).getLast? = some ['$'] then ['$'] else []) ∧
      front ++ body ++ back = content pattern.source ∧
      ((glyphs pattern.source).getLast? = some ['\\', '$'] → ['\\', '$'] <:+ body) ∧
      ∀ earlier, glyphs pattern.source = earlier ++ [['\\', '\\'], ['$']] → back = ['$'] := by
  obtain ⟨front, body, back, parts, start, stop, whole⟩ := exists_parts pattern
  refine ⟨front, body, back, parts, ?_, start, stop, whole, fun escaped => ?_, fun earlier same => ?_⟩
  · rw [parts, compile_parts whole]
  · have unanchored : back = [] := by rw [stop, escaped, if_neg (by simp)]
    have kept : content pattern.source = pattern.source := if_neg fun group => by
      rw [group] at escaped
      cases escaped
    rw [start, unanchored, List.append_nil, kept] at whole
    exact escape_in_body escaped whole
  · rw [stop, same, if_pos (by simp)]

theorem glyphs_escapeEach {special : List Char} (escapes : '\\' ∈ special) (text rest : Text) :
    glyphs (Text.escapeEach special text ++ rest) =
      text.map (fun c => if c ∈ special then ['\\', c] else [c]) ++ glyphs rest := by
  induction text with
  | nil => rfl
  | cons c text ih =>
    rw [Text.escapeEach_cons, List.append_assoc, List.map_cons, List.cons_append, ← ih]
    split
    next => rfl
    next plain =>
      refine glyphs_cons (fun escape => plain ?_) _
      subst escape
      exact escapes

/-- No sign stands alone in an escaped text, so it starts with no anchor and no group. -/
private theorem head?_escapeEach {sign : Char} (known : sign ∈ ['^', '(']) {back : Text} (stop : back ∈ [[], ['$']])
    (text : Text) : (Text.escapeEach Text.patternSpecials text ++ back).head? ≠ some sign := by
  simp only [List.mem_cons, List.not_mem_nil, or_false] at known stop
  cases text with
  | nil => rcases known with rfl | rfl <;> rcases stop with rfl | rfl <;> simp
  | cons c text =>
    rw [Text.escapeEach_cons]
    split
    next => rcases known with rfl | rfl <;> simp
    next plain =>
      intro head
      obtain rfl : c = sign := by simpa using head
      rcases known with rfl | rfl <;> exact plain (by decide)

private theorem splitFront_escaped {front back : Text} (start : front ∈ [[], ['^']]) (stop : back ∈ [[], ['$']])
    (text : Text) :
    Builder.splitFront (front ++ (Text.escapeEach Text.patternSpecials text ++ back)) =
      (front, Text.escapeEach Text.patternSpecials text ++ back) := by
  simp only [List.mem_cons, List.not_mem_nil, or_false] at start
  rcases start with rfl | rfl
  · have sign := splitFront_fst (Text.escapeEach Text.patternSpecials text ++ back)
    have whole := splitFront_append (Text.escapeEach Text.patternSpecials text ++ back)
    rw [if_neg (head?_escapeEach (by simp) stop text)] at sign
    rw [sign] at whole
    exact Prod.ext sign whole
  · rfl

private theorem splitBack_escaped {back : Text} (stop : back ∈ [[], ['$']]) (text : Text) :
    Builder.splitBack (Text.escapeEach Text.patternSpecials text ++ back) =
      (Text.escapeEach Text.patternSpecials text, back) := by
  have sign := splitBack_snd (Text.escapeEach Text.patternSpecials text ++ back)
  have whole := splitBack_append (Text.escapeEach Text.patternSpecials text ++ back)
  have same : (Builder.splitBack (Text.escapeEach Text.patternSpecials text ++ back)).2 = back := by
    rw [sign, glyphs_escapeEach (by decide)]
    simp only [List.mem_cons, List.not_mem_nil, or_false] at stop
    rcases stop with rfl | rfl
    · rw [if_neg]
      intro last
      simp only [glyphs, List.append_nil] at last
      obtain ⟨c, -, alone⟩ := List.mem_map.mp (List.mem_of_getLast? last)
      split at alone
      next => cases alone
      next plain =>
        obtain rfl : c = '$' := by simpa using alone
        exact plain (by decide)
    · simp [glyphs]
  rw [same] at whole
  exact Prod.ext (List.append_cancel_right whole) same

private theorem content_escaped {front back : Text} (start : front ∈ [[], ['^']]) (stop : back ∈ [[], ['$']])
    (text : Text) :
    content (front ++ (Text.escapeEach Text.patternSpecials text ++ back)) =
      front ++ (Text.escapeEach Text.patternSpecials text ++ back) := by
  refine if_neg fun group => ?_
  simp only [List.mem_cons, List.not_mem_nil, or_false] at start
  rcases start with rfl | rfl
  · exact head?_escapeEach (by simp) stop text (congrArg List.head? group)
  · cases congrArg List.head? group

/-- A text with anchors and flags compiles, and the pattern is taken apart into the same builder. -/
theorem ofPattern_compile (text : Text) (start stop : Bool) {letters : Text}
    (known : ∀ letter ∈ letters, letter ∈ ['g', 'i', 'm', 's', 'u']) :
    ∃ builder pattern,
      (Builder.of (.text text)).run
        [.assertStart start, .assertEnd stop, .removeFlags ['g', 'm'], .addFlags letters] = .ok builder ∧
      builder.flags = .ofText letters ∧ builder.compile = .ok pattern ∧ Builder.of (.pattern pattern) = builder := by
  have first : (if start then ['^'] else []) ∈ [[], ['^']] := by cases start <;> simp
  have last : (if stop then ['$'] else []) ∈ [[], ['$']] := by cases stop <;> simp
  obtain ⟨pattern, compiles⟩ := compile_text first last text (FlagSet.error?_ofText known)
  refine ⟨_, pattern, rfl, ?_, ?_, ?_⟩
  · rfl
  · exact compiles
  · obtain ⟨source, flags⟩ := Pattern.compile_eq_ok_iff.mp compiles
    rw [source_text, List.append_assoc] at source
    rw [FlagSet.ofText_letters] at flags
    rw [of_pattern, source, flags, content_compiled, Text.escapeForPattern, content_escaped first last,
      splitFront_escaped first last, splitBack_escaped last]
    rfl

theorem ofPattern_compile_of_signs :
    (∀ letter ∈ ['m', 'i'], letter ∈ ['g', 'i', 'm', 's', 'u']) ∧
      ∃ builder pattern,
        (Builder.of (.text ['^', 'a', '$', '\\'])).run
          [.assertStart true, .assertEnd true, .removeFlags ['g', 'm'], .addFlags ['m', 'i']] = .ok builder ∧
        builder.flags = .ofText ['m', 'i'] ∧ builder.compile = .ok pattern ∧
        Builder.of (.pattern pattern) = builder :=
  ⟨by simp, ofPattern_compile ['^', 'a', '$', '\\'] true true (by simp)⟩

end FluentPattern.Proofs.TakingApart
