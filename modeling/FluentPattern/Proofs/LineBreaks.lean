import FluentPattern.Proofs.LiteralGrammar
import FluentPattern.Proofs.TakingApart

/-! Line breaks in literals. A reader refuses a line break wherever it stands alone in a pattern, inside of a class and
outside. An escape is taken as a whole, though, whatever character is in it, so a line break after a backslash stays in
the pattern that is read. -/

namespace FluentPattern.Proofs.LineBreaks
open Literal LiteralGrammar TakingApart

def lineBreaks : List Char := ['\n', '\r']

/-- Whether a class is open behind some glyphs: of the brackets among them, the last one says so, and what is open
before them, if there is none. An escaped bracket is no bracket. -/
def isInClass (inClass : Bool) (read : List Text) : Bool :=
  ((read.filter (· ∈ [['['], [']']])).getLast?.map (· == ['['])).getD inClass

/-- Whether there is a slash among some glyphs that ends a literal: it is neither escaped nor in a class. -/
def Closed (inClass : Bool) (read : List Text) : Prop :=
  ∃ earlier later, read = earlier ++ ['/'] :: later ∧ isInClass inClass earlier = false

/-- Whether a line break stands alone among some glyphs, and no slash before it ends the literal. -/
def BrokenOff (inClass : Bool) (glyphs : List Text) : Prop :=
  ∃ earlier c later, glyphs = earlier ++ [c] :: later ∧ c ∈ lineBreaks ∧ ¬Closed inClass earlier

private def enters (inClass : Bool) (glyph : Text) : Bool := glyph == ['['] || (inClass && glyph != [']'])

private theorem isInClass_cons (inClass : Bool) (glyph : Text) (read : List Text) :
    isInClass inClass (glyph :: read) = isInClass (enters inClass glyph) read := by
  unfold isInClass
  by_cases bracket : glyph ∈ [['['], [']']]
  · rw [List.filter_cons_of_pos (by simpa using bracket), List.getLast?_cons]
    simp only [List.mem_cons, List.not_mem_nil, or_false] at bracket
    cases (read.filter (· ∈ [['['], [']']])).getLast? with
    | none => rcases bracket with rfl | rfl <;> simp [enters]
    | some last => rfl
  · rw [List.filter_cons_of_neg (by simpa using bracket)]
    simp only [List.mem_cons, List.not_mem_nil, or_false, not_or] at bracket
    have kept : enters inClass glyph = inClass := by cases inClass <;> simp [enters, bracket]
    rw [kept]

private theorem closed_cons {inClass : Bool} {glyph : Text} {read : List Text} :
    Closed inClass (glyph :: read) ↔ glyph = ['/'] ∧ inClass = false ∨ Closed (enters inClass glyph) read := by
  constructor
  · rintro ⟨earlier, later, same, outside⟩
    cases earlier with
    | nil => exact .inl ⟨(List.cons.inj same).1, outside⟩
    | cons first earlier =>
      obtain ⟨rfl, rest⟩ := List.cons.inj same
      rw [isInClass_cons] at outside
      exact .inr ⟨earlier, later, rest, outside⟩
  · rintro (⟨rfl, outside⟩ | ⟨earlier, later, rfl, outside⟩)
    · exact ⟨[], read, rfl, outside⟩
    · exact ⟨glyph :: earlier, later, rfl, (isInClass_cons ..).trans outside⟩

private theorem brokenOff_cons {inClass : Bool} {glyph : Text} {rest : List Text} :
    BrokenOff inClass (glyph :: rest) ↔
      (∃ c ∈ lineBreaks, glyph = [c]) ∨
        ¬(glyph = ['/'] ∧ inClass = false) ∧ BrokenOff (enters inClass glyph) rest := by
  constructor
  · rintro ⟨earlier, c, later, same, breaks, unclosed⟩
    cases earlier with
    | nil => exact .inl ⟨c, breaks, (List.cons.inj same).1⟩
    | cons first earlier =>
      obtain ⟨rfl, rest⟩ := List.cons.inj same
      rw [closed_cons, not_or] at unclosed
      exact .inr ⟨unclosed.1, earlier, c, later, rest, breaks, unclosed.2⟩
  · rintro (⟨c, breaks, rfl⟩ | ⟨goes, earlier, c, later, rfl, breaks, unclosed⟩)
    · exact ⟨[], c, rest, rfl, breaks, fun ⟨_, _, same, _⟩ => by simp at same⟩
    · exact ⟨glyph :: earlier, c, later, rfl, breaks, fun closed => (closed_cons.mp closed).elim goes unclosed⟩

private theorem brokenOff_escape {inClass : Bool} {c : Char} {rest : Text} :
    BrokenOff inClass (glyphs ('\\' :: c :: rest)) ↔ BrokenOff inClass (glyphs rest) := by
  have kept : enters inClass ['\\', c] = inClass := by cases inClass <;> simp [enters]
  rw [glyphs, brokenOff_cons, kept]
  simp

private theorem brokenOff_plain {inClass : Bool} {c : Char} {rest : Text} (plain : c ≠ '\\') :
    BrokenOff inClass (glyphs (c :: rest)) ↔
      c ∈ lineBreaks ∨
        ¬(c = '/' ∧ inClass = false) ∧ BrokenOff (c == '[' || (inClass && c != ']')) (glyphs rest) := by
  have state : enters inClass [c] = (c == '[' || (inClass && c != ']')) := by simp [enters, bne]
  rw [glyphs_cons plain, brokenOff_cons, state]
  simp

/-- The reader stops at the first line break that stands alone, and takes note of the brackets on its way. -/
theorem scanSource_eq_lineBreak_iff {inClass : Bool} {before : List Char} {text : Text} :
    (scanSource inClass before text).1 = some .lineBreak ↔ BrokenOff inClass (glyphs text) := by
  fun_induction scanSource inClass before text with
  | case1 => simp [glyphs, BrokenOff]
  | case2 =>
    -- A backslash that is the last character escapes nothing, so it is a glyph of its own.
    have whole : glyphs ['\\'] = [['\\']] := rfl
    rw [whole, brokenOff_cons]
    simp [lineBreaks, BrokenOff]
  | case3 inClass before c rest ih => rw [ih, brokenOff_escape]
  | case4 inClass before c rest _ _ closes =>
    obtain ⟨rfl, rfl⟩ := closes
    rw [brokenOff_plain (by decide)]
    simp [lineBreaks]
  | case5 inClass before c rest _ _ _ breaks =>
    have plain : c ≠ '\\' := by rintro rfl; simp at breaks
    rw [brokenOff_plain plain]
    simp [lineBreaks, breaks]
  | case6 inClass before c rest alone escape goes stays ih =>
    have plain := ne_backslash alone escape
    have unbroken : c ∉ lineBreaks := by simpa [lineBreaks] using stays
    rw [ih, brokenOff_plain plain]
    simp [unbroken, goes]

private theorem not_mem_glyphs_cons {c d : Char} {rest : Text} (plain : d ≠ '\\') (different : c ≠ d)
    (later : [c] ∉ glyphs rest) : [c] ∉ glyphs (d :: rest) := by
  rw [glyphs_cons plain, List.mem_cons, not_or]
  exact ⟨by simpa using different, later⟩

theorem not_mem_glyphs_of_tail {inClass : Bool} {source : Text} (tail : Tail inClass source) :
    ∀ c ∈ lineBreaks, [c] ∉ glyphs source := by
  intro c breaks
  simp only [lineBreaks, List.mem_cons, List.not_mem_nil, or_false] at breaks
  induction tail with
  | nil => simp [glyphs]
  | escape d _ ih => simpa [glyphs] using ih
  | enter _ ih =>
    refine not_mem_glyphs_cons (by decide) ?_ ih
    rcases breaks with rfl | rfl <;> decide
  | leave _ ih =>
    refine not_mem_glyphs_cons (by decide) ?_ ih
    rcases breaks with rfl | rfl <;> decide
  | inside allowed _ ih | outside allowed _ ih =>
    simp only [List.mem_cons, List.not_mem_nil, or_false, not_or] at allowed
    refine not_mem_glyphs_cons (by simp [allowed]) ?_ ih
    rcases breaks with rfl | rfl <;> simp [eq_comm, allowed]

theorem mem_iff_glyphs {c : Char} (plain : c ≠ '\\') (text : Text) :
    c ∈ text ↔ [c] ∈ glyphs text ∨ ['\\', c] ∈ glyphs text := by
  fun_induction glyphs text with
  | case1 d rest ih =>
    simp only [List.mem_cons, plain, false_or, ih, List.cons.injEq, reduceCtorEq, and_false, and_true, true_and]
    exact or_left_comm
  | case2 d rest _ ih =>
    simp only [List.mem_cons, ih, List.cons.injEq, reduceCtorEq, and_false, and_true, false_or]
    exact or_assoc.symm
  | case3 => simp

/-- Only the pattern of a literal is refused for a line break; one in the flags is no letter. -/
theorem eq_lineBreak_iff_of_reading {cursor stop : Cursor} {outcome : Except Fault Literal}
    (reading : Reading cursor outcome stop) :
    outcome = .error .lineBreak ↔ ∃ body, cursor.rest = '/' :: body ∧ BrokenOff false (glyphs body) := by
  have broken {opened : Cursor} (opens : skipSlash? cursor = some opened) :
      (∃ body, cursor.rest = '/' :: body ∧ BrokenOff false (glyphs body)) ↔
        (scanSource false opened.before opened.rest).1 = some .lineBreak := by
    simp [rest_of_skipSlash? opens, scanSource_eq_lineBreak_iff]
  cases reading with
  | unopened opens =>
    refine iff_of_false (by simp) ?_
    rintro ⟨body, slash, -⟩
    simp [skipSlash?, slash] at opens
  | sourceFault opens scans => simp [broken opens, scans]
  | unclosed opens scans => simp [broken opens, scans]
  | @flagFault opened closing closed fault stop opens scans _ ends =>
    have flags := fault_of_scanFlags ends
    have other : fault ≠ .lineBreak := by rintro rfl; simp at flags
    simp [broken opens, scans, other]
  | whole opens scans => simp [broken opens, scans]

theorem readAt_eq_lineBreak_iff {cursor : Cursor} :
    (readAt cursor).1 = .error .lineBreak ↔ ∃ body, cursor.rest = '/' :: body ∧ BrokenOff false (glyphs body) :=
  eq_lineBreak_iff_of_reading (reading_readAt cursor)

/-- A literal, read from any place of a text, is refused for a line break exactly if one stands alone in it, in a class
or not, before the slash that ends the pattern. What stands after a backslash is not looked at: the line breaks of a
pattern that is read are those in its escapes. -/
theorem line_breaks_only_escaped (cursor : Cursor) :
    ((readFrom cursor).1 = .error (.invalidLiteral cursor.text .lineBreak) ↔
      ∃ body, cursor.rest = '/' :: body ∧ BrokenOff false (glyphs body)) ∧
    ∀ literal, (readFrom cursor).1 = .ok literal →
      ∀ c ∈ lineBreaks, (c ∈ literal.source ↔ ['\\', c] ∈ glyphs literal.source) := by
  rw [← readAt_eq_lineBreak_iff, readFrom_fst]
  cases reads : (readAt cursor).1 with
  | error fault => simp
  | ok literal =>
    refine ⟨by simp, ?_⟩
    intro _ same c breaks
    cases same
    obtain ⟨-, body, -⟩ := splits_of_readAt reads
    have escape : c ≠ '\\' := by
      rintro rfl
      simp [lineBreaks] at breaks
    rw [mem_iff_glyphs escape, or_iff_right (not_mem_glyphs_of_tail (tail_iff_body.mpr body) c breaks)]

/-- A line break in a class that a slash does not close, and one in an escape in the middle of a text. -/
theorem line_breaks_only_escaped_of_class :
    let broken : Cursor := .start ['/', '[', '/', '\n', ']', '/']
    let escaped : Cursor := ⟨['x'], ['/', 'a', '\\', '\r', '/', 'g']⟩
    (∃ body, broken.rest = '/' :: body ∧ BrokenOff false (glyphs body)) ∧
      (readFrom broken).1 = .error (.invalidLiteral broken.text .lineBreak) ∧
      (readFrom escaped).1 = .ok ⟨['a', '\\', '\r'], ['g']⟩ ∧ '\r' ∈ lineBreaks ∧
      ('\r' ∈ ['a', '\\', '\r'] ↔ ['\\', '\r'] ∈ glyphs ['a', '\\', '\r']) := by
  intro broken escaped
  have unclosed : ¬Closed false [['['], ['/']] := by
    rw [closed_cons, closed_cons]
    simp [Closed, enters]
  have body : ∃ body, broken.rest = '/' :: body ∧ BrokenOff false (glyphs body) :=
    ⟨_, rfl, [['['], ['/']], '\n', [[']'], ['/']], rfl, by decide, unclosed⟩
  have reads : (readFrom escaped).1 = .ok ⟨['a', '\\', '\r'], ['g']⟩ := rfl
  have breaks : '\r' ∈ lineBreaks := by decide
  exact ⟨body, (line_breaks_only_escaped broken).1.mpr body, reads, breaks,
    (line_breaks_only_escaped escaped).2 _ reads _ breaks⟩

/-- A literal with a line break after a backslash, outside of a class or inside, is read, and its pattern holds the line
break. -/
theorem escaped_line_break_read :
    Literal.parse ['/', 'a', '\\', '\n', 'b', '/'] = .ok ⟨['a', '\\', '\n', 'b'], []⟩ ∧
      '\n' ∈ ['a', '\\', '\n', 'b'] ∧
      Literal.parse ['/', '[', '\\', '\r', ']', '/', 'g'] = .ok ⟨['[', '\\', '\r', ']'], ['g']⟩ ∧
      '\r' ∈ ['[', '\\', '\r', ']'] :=
  ⟨rfl, by decide, rfl, by decide⟩

end FluentPattern.Proofs.LineBreaks
