import FluentPattern.Builder.Step
import FluentPattern.Proofs.Compiling
import FluentPattern.Proofs.Searching
import FluentPattern.Proofs.SourceReading
import FluentPattern.Proofs.TextCompiling
import FluentPattern.Proofs.Words

/-! Text that is built into a pattern matches itself. Where case counts, the characters of a text lead from a place to
the one place behind them, if the text stands there, so between both anchors only the text itself is left. -/

namespace FluentPattern.Proofs.LiteralMatching
open Regex Tokens NodeReading SourceReading Searching TextCompiling

def characters (text : Text) : List Regex := text.map fun c => .char (.single c)

theorem simple_characters (text : Text) : ∀ piece ∈ characters text, Simple piece := by
  intro piece member
  obtain ⟨c, -, rfl⟩ := List.mem_map.mp member
  exact .char c

theorem cuts_characters (text : Text) :
    Cuts .engine text.escapeForPattern ((characters text.collapseBackslashes).map .item) := by
  rw [characters, List.map_map]
  exact cuts_escaped _

theorem ends_literalRegex {mode : Mode} (caseful : mode.ignoreCase = false) (text : Text)
    (before : List Char) (rest : Text) :
    (literalRegex text).ends mode ⟨before, rest⟩ =
      if text <+: rest then [⟨text.reverse ++ before, rest.drop text.length⟩] else [] := by
  induction text generalizing before rest with
  | nil => simp [literalRegex, chain, ends]
  | cons c text ih =>
    have step : literalRegex (c :: text) = .seq (.char (.single c)) (literalRegex text) := rfl
    rw [step, ends]
    cases rest with
    | nil => simp [ends]
    | cons c' rest =>
      rw [ends, CharSet.contains_of_not_ignoreCase caseful]
      by_cases same : c' = c
      · subst same
        simp [CharSet.holds, ih]
      · simp [CharSet.holds, same, Ne.symm same]

theorem takes_literalRegex {mode : Mode} (caseful : mode.ignoreCase = false) (text word : Text) :
    (literalRegex text).Takes mode word ↔ word = text := by
  rw [Takes, Cursor.start, ends_literalRegex caseful]
  by_cases here : text <+: word
  · obtain ⟨more, rfl⟩ := here
    simp
  · have other : word ≠ text := fun same => here (same ▸ List.prefix_refl _)
    simp [here, other]

theorem ends_anchored {mode : Mode} (caseful : mode.ignoreCase = false) (single : mode.multiLine = false) (text : Text)
    (before : List Char) (rest : Text) :
    (Regex.seq .atStart (.seq (literalRegex text) .atEnd)).ends mode ⟨before, rest⟩ ≠ [] ↔
      before = [] ∧ rest = text := by
  rw [Words.ends_anchored single, takes_literalRegex caseful]

def anchoredPieces (text : Text) : List Regex := .atStart :: characters text ++ [.atEnd]

private theorem simple_anchoredPieces (text : Text) : ∀ piece ∈ anchoredPieces text, Simple piece := by
  simp only [anchoredPieces, List.cons_append, List.forall_mem_cons, List.forall_mem_append]
  exact ⟨.atStart, simple_characters text, .atEnd, nofun⟩

private theorem regrouped_anchoredPieces (text : Text) :
    Regrouped (chain (anchoredPieces text)) (.seq .atStart (.seq (literalRegex text) .atEnd)) :=
  .seq (.refl _) (.trans (.chain_append _ _) (.seq (.refl _) (.seq_empty _)))

theorem isSteady_literalRegex (text : Text) : (literalRegex text).isSteady := by
  induction text with
  | nil => rfl
  | cons c text ih => exact ih

private theorem exists_pattern (text : Text) {flags : FlagSet} (known : flags.error? = none) :
    ∃ pattern,
      Pattern.compile (['^'] ++ Text.escapeEach Text.patternSpecials text ++ ['$']) flags.letters = .ok pattern ∧
      pattern.regex = chain (anchoredPieces text) ∧ pattern.flags = flags := by
  have cuts : Cuts .engine (['^'] ++ Text.escapeEach Text.patternSpecials text ++ ['$'])
      ((anchoredPieces text).map .item) := by
    have all : Cuts .engine _ _ := (cutsItem_start.cuts.append (cuts_escaped text)).append cutsItem_end.cuts
    simpa [anchoredPieces, characters, Function.comp_def] using all
  have several : seqAll (anchoredPieces text) = chain (anchoredPieces text) := by
    cases text <;> rfl
  rw [← several]
  exact exists_of_simple cuts (simple_anchoredPieces text) known

theorem collapseBackslashes_eq_self {text : Text} (single : ¬['\\', '\\'] <:+: text) :
    text.collapseBackslashes = text := by
  induction text with
  | nil => rfl
  | cons c text ih =>
    have rest : Text.collapseBackslashes text = text :=
      ih fun inside => single (inside.trans (List.suffix_cons c text).isInfix)
    unfold Text.collapseBackslashes
    split
    next run =>
      obtain ⟨rfl, first⟩ := run
      obtain ⟨more, rfl⟩ := List.head?_eq_some_iff.mp first
      exact absurd ⟨[], more, rfl⟩ single
    next => rw [rest]

/-- A text between both anchors, without the flag that lets them match at lines, compiles, and the pattern matches the
text with every run of backslashes collapsed, and nothing else. -/
theorem isMatch_iff_eq (text : Text) :
    ∃ builder pattern,
      (Builder.of (.text text)).run [.assertStart true, .assertEnd true, .removeFlags ['m']] = .ok builder ∧
      builder.compile = .ok pattern ∧
      (∀ haystack, pattern.isMatch haystack ↔ haystack = text.collapseBackslashes) ∧
      (¬['\\', '\\'] <:+: text → ∀ haystack, pattern.isMatch haystack ↔ haystack = text) := by
  have known : (FlagSet.standard.difference ['m']).error? = none := by decide
  obtain ⟨pattern, compiled, regex, flags⟩ := exists_pattern text.collapseBackslashes known
  have caseful : pattern.mode.ignoreCase = false := by
    rw [Pattern.mode, flags]
    decide
  have single : pattern.mode.multiLine = false := by
    rw [Pattern.mode, flags]
    decide
  have same := regrouped_anchoredPieces text.collapseBackslashes
  have steady : pattern.regex.isSteady := by
    rw [regex, same.isSteady_eq]
    simpa [isSteady] using isSteady_literalRegex _
  have matching : ∀ haystack, pattern.isMatch haystack ↔ haystack = text.collapseBackslashes := by
    intro haystack
    rw [Pattern.isMatch_iff steady, regex, same.ends_eq]
    constructor
    · rintro ⟨front, back, rfl, leads⟩
      obtain ⟨none, rfl⟩ := (ends_anchored caseful single _ _ _).mp leads
      rw [List.reverse_eq_nil_iff.mp none]
      rfl
    · rintro rfl
      exact ⟨[], _, rfl, (ends_anchored caseful single _ _ _).mpr ⟨rfl, rfl⟩⟩
  refine ⟨_, pattern, rfl, compiled, matching, fun alone => ?_⟩
  rwa [collapseBackslashes_eq_self alone] at matching

/-- A text of signs with a backslash at its end, right before the anchor. -/
theorem isMatch_iff_eq_of_signs :
    ¬['\\', '\\'] <:+: ['a', '+', '$', '\\'] ∧
    ∃ builder pattern,
      (Builder.of (.text ['a', '+', '$', '\\'])).run [.assertStart true, .assertEnd true, .removeFlags ['m']] =
        .ok builder ∧
      builder.compile = .ok pattern ∧
      ∀ haystack, pattern.isMatch haystack ↔ haystack = ['a', '+', '$', '\\'] := by
  have alone : ¬['\\', '\\'] <:+: ['a', '+', '$', '\\'] := by decide
  obtain ⟨builder, pattern, built, compiles, _, matching⟩ := isMatch_iff_eq ['a', '+', '$', '\\']
  exact ⟨alone, builder, pattern, built, compiles, matching alone⟩

end FluentPattern.Proofs.LiteralMatching
