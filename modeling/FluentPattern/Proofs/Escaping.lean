import FluentPattern.Proofs.LiteralMatching
import FluentPattern.Proofs.TakingApart

/-! Escaped texts. Both ways of escaping write a text in pieces: an escape for each special character, and every other
character as it is. A backslash is special in both, so the pieces can be told apart from the left, and without the
backslashes that were written before the special characters they are the text with its runs of backslashes collapsed.
What escaping does to texts is therefore what collapsing does to them. -/

namespace FluentPattern

namespace Text
open Proofs.LiteralMatching

/-- A run of backslashes that goes on from one text to the next. -/
def MeetInRun (first second : Text) : Prop := first.getLast? = some '\\' ∧ second.head? = some '\\'

theorem collapseBackslashes_cons {c : Char} {rest : Text} (apart : ¬(c = '\\' ∧ rest.head? = some '\\')) :
    collapseBackslashes (c :: rest) = c :: collapseBackslashes rest := if_neg apart

theorem collapseBackslashes_run (rest : Text) :
    collapseBackslashes ('\\' :: '\\' :: rest) = collapseBackslashes ('\\' :: rest) := if_pos ⟨rfl, rfl⟩

theorem head?_collapseBackslashes (text : Text) : text.collapseBackslashes.head? = text.head? := by
  fun_induction collapseBackslashes text with
  | case1 => rfl
  | case2 c rest run ih => rw [ih, run.2, run.1, List.head?_cons]
  | case3 => rfl

theorem getLast?_collapseBackslashes (text : Text) : text.collapseBackslashes.getLast? = text.getLast? := by
  fun_induction collapseBackslashes text with
  | case1 => rfl
  | case2 c rest run ih =>
    obtain ⟨more, rfl⟩ := List.head?_eq_some_iff.mp run.2
    rw [ih, List.getLast?_cons_cons]
  | case3 c rest apart ih =>
    rw [List.getLast?_cons, List.getLast?_cons, ih]

theorem filter_collapseBackslashes (text : Text) :
    text.collapseBackslashes.filter (· ≠ '\\') = text.filter (· ≠ '\\') := by
  fun_induction collapseBackslashes text with
  | case1 => rfl
  | case2 c rest run ih => rw [ih, run.1, List.filter_cons_of_neg (by simp)]
  | case3 c rest apart ih => rw [List.filter_cons, List.filter_cons, ih]

theorem not_infix_collapseBackslashes (text : Text) : ¬['\\', '\\'] <:+: text.collapseBackslashes := by
  fun_induction collapseBackslashes text with
  | case1 => simp
  | case2 _ _ _ ih => exact ih
  | case3 c rest apart ih =>
    intro inside
    rcases List.infix_cons_iff.mp inside with starts | later
    · obtain ⟨more, same⟩ := starts
      obtain ⟨first, second⟩ := List.cons.inj same
      refine apart ⟨first.symm, ?_⟩
      rw [← head?_collapseBackslashes, ← second]
      rfl
    · exact ih later

theorem collapseBackslashes_eq_self_iff {text : Text} :
    text.collapseBackslashes = text ↔ ¬['\\', '\\'] <:+: text := by
  constructor
  · intro same
    rw [← same]
    exact not_infix_collapseBackslashes text
  · exact collapseBackslashes_eq_self

private theorem collapseBackslashes_append_of_apart {first second : Text} (apart : ¬MeetInRun first second) :
    collapseBackslashes (first ++ second) = collapseBackslashes first ++ collapseBackslashes second := by
  fun_induction collapseBackslashes first with
  | case1 => rfl
  | case2 c rest run ih =>
    obtain ⟨rfl, head⟩ := run
    obtain ⟨more, rfl⟩ := List.head?_eq_some_iff.mp head
    rw [MeetInRun, List.getLast?_cons_cons] at apart
    rw [← ih apart]
    exact collapseBackslashes_run (more ++ second)
  | case3 c rest alone ih =>
    cases rest with
    | nil => exact collapseBackslashes_cons fun ⟨same, head⟩ => apart ⟨congrArg some same, head⟩
    | cons d rest =>
      rw [MeetInRun, List.getLast?_cons_cons] at apart
      have stays : collapseBackslashes (c :: (d :: rest ++ second)) = c :: collapseBackslashes (d :: rest ++ second) :=
        collapseBackslashes_cons alone
      rw [List.cons_append, stays, ih apart, List.cons_append]

/-- Two texts are collapsed on their own exactly if no run of backslashes goes on from one to the other: such a run
would be left as two backslashes. -/
theorem collapseBackslashes_append_iff {first second : Text} :
    collapseBackslashes (first ++ second) = collapseBackslashes first ++ collapseBackslashes second ↔
      ¬MeetInRun first second := by
  refine ⟨fun same meet => ?_, collapseBackslashes_append_of_apart⟩
  obtain ⟨earlier, left⟩ := List.getLast?_eq_some_iff.mp ((getLast?_collapseBackslashes first).trans meet.1)
  obtain ⟨later, right⟩ := List.head?_eq_some_iff.mp ((head?_collapseBackslashes second).trans meet.2)
  apply not_infix_collapseBackslashes (first ++ second)
  rw [same, left, right]
  exact ⟨earlier, later, by simp⟩

end Text

namespace Proofs.Escaping
open Text TakingApart

inductive Piece (special : List Char) : Text → Prop where
  | escape {c : Char} (isSpecial : c ∈ special) : Piece special ['\\', c]
  | plain {c : Char} (isPlain : c ∉ special) : Piece special [c]

def unescapePiece : Text → Text
  | ['\\', c] => [c]
  | piece => piece

def unescape (text : Text) : Text := (glyphs text).flatMap unescapePiece

/-- The laws of a way of escaping, with its special characters. -/
structure Decodes (special : List Char) (escape : Text → Text) : Prop where
  /-- Escapes of special characters and other characters alone are all there is. -/
  pieces : ∀ text, (glyphs (escape text)).flatten = escape text ∧ ∀ piece ∈ glyphs (escape text), Piece special piece
  unescaped : ∀ text, unescape (escape text) = text.collapseBackslashes
  alike : ∀ text other, escape text = escape other ↔ text.collapseBackslashes = other.collapseBackslashes
  joined : ∀ first second, escape (first ++ second) = escape first ++ escape second ↔ ¬MeetInRun first second

variable {special : List Char} (escapes : '\\' ∈ special)

include escapes

private theorem glyphs_escaped (text : Text) :
    glyphs (escapeEach special text) = text.map fun c => if c ∈ special then ['\\', c] else [c] := by
  simpa [glyphs] using glyphs_escapeEach escapes text []

theorem piece_of_mem_glyphs {text piece : Text} (member : piece ∈ glyphs (escapeEach special text)) :
    Piece special piece := by
  rw [glyphs_escaped escapes, List.mem_map] at member
  obtain ⟨c, -, rfl⟩ := member
  split
  next isSpecial => exact .escape isSpecial
  next isPlain => exact .plain isPlain

theorem unescape_escapeEach (text : Text) : unescape (escapeEach special text) = text := by
  have single (c : Char) : unescapePiece (if c ∈ special then ['\\', c] else [c]) = [c] := by
    split
    · rfl
    · simp [unescapePiece]
  simp [unescape, glyphs_escaped escapes, List.flatMap_map, single]

theorem escapeEach_inj {text other : Text} : escapeEach special text = escapeEach special other ↔ text = other :=
  (Function.LeftInverse.injective (unescape_escapeEach escapes)).eq_iff

/-- Escaping is lawful if it escapes the backslash that it escapes with. -/
theorem decodes_escapeEach : Decodes special fun text => escapeEach special text.collapseBackslashes where
  pieces text := ⟨flatten_glyphs _, fun _ => piece_of_mem_glyphs escapes⟩
  unescaped text := unescape_escapeEach escapes text.collapseBackslashes
  alike text other := escapeEach_inj escapes
  joined first second := by
    rw [← escapeEach_append, escapeEach_inj escapes, collapseBackslashes_append_iff]

omit escapes

/-- Both ways of escaping write a text in pieces from which the collapsed text is read back. So texts are written alike
exactly if they collapse to the same text, and one after the other exactly if no run of backslashes goes on between
them. Collapsing keeps all other characters, leaves no two backslashes together and changes no text that has none. -/
theorem escapes_decode :
    Decodes patternSpecials escapeForPattern ∧ Decodes classSpecials escapeForClass ∧
      ∀ text : Text,
        text.collapseBackslashes.filter (· ≠ '\\') = text.filter (· ≠ '\\') ∧
        ¬['\\', '\\'] <:+: text.collapseBackslashes ∧
        text.collapseBackslashes.collapseBackslashes = text.collapseBackslashes ∧
        (text.collapseBackslashes = text ↔ ¬['\\', '\\'] <:+: text) := by
  refine ⟨decodes_escapeEach (by decide), decodes_escapeEach (by decide), fun text => ?_⟩
  have single := not_infix_collapseBackslashes text
  exact ⟨filter_collapseBackslashes text, single, collapseBackslashes_eq_self_iff.mpr single,
    collapseBackslashes_eq_self_iff⟩

end Proofs.Escaping
end FluentPattern
