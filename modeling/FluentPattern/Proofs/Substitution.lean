import FluentPattern.Proofs.LiteralMatching

/-! Replacing a text is what it says. A pattern that is built from a text finds the word that the text stands for where
it occurs first, and goes on right behind it; so to replace its matches is to read the haystack from left to right and
put the replacement in the place of the word, once or again and again. -/

namespace FluentPattern

namespace Text

/-- Reads a text from left to right and puts a replacement in the place of a word wherever the word stands and none of
its characters has been replaced before. -/
def substitute (word replacement : Text) : Text → Text
  | [] => []
  | c :: rest =>
    if word <+: c :: rest then replacement ++ substitute word replacement (rest.drop (word.length - 1))
    else c :: substitute word replacement rest
termination_by text => text.length
decreasing_by all_goals (simp only [List.length_drop, List.length_cons]; omega)

/-- Reads a text from left to right and puts a replacement in the place of a word only where the word comes first. -/
def substituteFirst (word replacement : Text) : Text → Text
  | [] => []
  | c :: rest =>
    if word <+: c :: rest then replacement ++ rest.drop (word.length - 1)
    else c :: substituteFirst word replacement rest

end Text

namespace Proofs.Substitution
open Regex NodeReading SourceReading Searching TextCompiling LiteralMatching

inductive FirstAt (word : Text) : (gap rest : Text) → Prop where
  | here (rest) : FirstAt word [] rest
  | further {gap rest} (c : Char) (absent : ¬word <+: c :: (gap ++ word ++ rest)) (later : FirstAt word gap rest) :
      FirstAt word (c :: gap) rest

section Words

variable {word gap rest text : Text}

theorem exists_first (word text : Text) :
    ¬word <:+: text ∨ ∃ gap rest, text = gap ++ word ++ rest ∧ FirstAt word gap rest := by
  induction text with
  | nil =>
    by_cases empty : word = []
    · exact .inr ⟨[], [], by simp [empty], .here []⟩
    · exact .inl (by simpa using empty)
  | cons c text ih =>
    by_cases here : word <+: c :: text
    · obtain ⟨rest, whole⟩ := here
      exact .inr ⟨[], rest, by simp [whole], .here rest⟩
    · rcases ih with absent | ⟨gap, rest, rfl, first⟩
      · refine .inl fun occurs => ?_
        rcases List.infix_cons_iff.mp occurs with start | later
        · exact here start
        · exact absent later
      · exact .inr ⟨c :: gap, rest, rfl, .further c here first⟩

/-- Behind its first character, a word that stands somewhere ends where the whole of it ends. -/
private theorem drop_cons {c : Char} (nonempty : word ≠ []) (whole : word ++ rest = c :: text) :
    text.drop (word.length - 1) = rest := by
  obtain ⟨first, word, rfl⟩ := List.exists_cons_of_ne_nil nonempty
  obtain ⟨rfl, rfl⟩ := List.cons.inj whole
  simp

theorem substitute_of_absent (absent : ¬word <:+: text) (replacement : Text) :
    Text.substitute word replacement text = text ∧ Text.substituteFirst word replacement text = text := by
  induction text with
  | nil => simp [Text.substitute, Text.substituteFirst]
  | cons c text ih =>
    have here : ¬word <+: c :: text := fun start => absent start.isInfix
    obtain ⟨all, one⟩ := ih fun later => absent (List.infix_cons later)
    rw [Text.substitute, Text.substituteFirst, if_neg here, if_neg here, all, one]
    exact ⟨rfl, rfl⟩

theorem substitute_of_first (nonempty : word ≠ []) (first : FirstAt word gap rest) (replacement : Text) :
    Text.substitute word replacement (gap ++ word ++ rest) = gap ++ replacement ++ Text.substitute word replacement rest ∧
      Text.substituteFirst word replacement (gap ++ word ++ rest) = gap ++ replacement ++ rest := by
  induction first with
  | here rest =>
    have start : word <+: word ++ rest := List.prefix_append word rest
    obtain ⟨c, text, whole⟩ : ∃ c text, word ++ rest = c :: text :=
      List.exists_cons_of_ne_nil (List.append_ne_nil_of_left_ne_nil nonempty rest)
    rw [List.nil_append, List.nil_append, whole, Text.substitute, Text.substituteFirst, ← whole, if_pos start,
      if_pos start, drop_cons nonempty whole]
    exact ⟨rfl, rfl⟩
  | further c absent _ ih =>
    obtain ⟨all, one⟩ := ih
    simp only [List.cons_append, Text.substitute, Text.substituteFirst, if_neg absent, all, one, and_self]

end Words

section Searches

variable {mode : Mode} {word gap rest text : Text}

private theorem leftmost_of_leads {lead : Cursor → List Cursor} {before : List Char} {place : Cursor}
    (leads : (lead ⟨before, text⟩).head? = some place) :
    leftmost lead before text = some ⟨⟨before, text⟩, place⟩ := by
  cases text <;> simp [leftmost, leads]

theorem leftmost_of_absent (caseful : mode.ignoreCase = false) (absent : ¬word <:+: text) (before : List Char) :
    leftmost ((literalRegex word).ends mode) before text = none := by
  apply Option.not_isSome_iff_eq_none.mp
  rw [leftmost_isSome]
  rintro ⟨front, back, rfl, leads⟩
  rw [ends_literalRegex caseful] at leads
  apply absent
  by_cases here : word <+: back
  · exact here.isInfix.trans (List.suffix_append front back).isInfix
  · simp [here] at leads

theorem leftmost_of_first (caseful : mode.ignoreCase = false) (first : FirstAt word gap rest) (before : List Char) :
    leftmost ((literalRegex word).ends mode) before (gap ++ word ++ rest) =
      some ⟨⟨gap.reverse ++ before, word ++ rest⟩, ⟨word.reverse ++ (gap.reverse ++ before), rest⟩⟩ := by
  induction first generalizing before with
  | here rest =>
    apply leftmost_of_leads
    simp [ends_literalRegex caseful]
  | further c absent _ ih =>
    rw [List.cons_append, List.cons_append, leftmost, ends_literalRegex caseful, if_neg absent, ih]
    simp

end Searches

section Patterns

variable {pattern : Pattern} {word : Text}

/-- The matches that a search finds one after the other are the words that are substituted. -/
private theorem replaceFrom_matchesFrom (nonempty : word ≠ [])
    (searches : ∀ cursor : Cursor, (pattern.regex.search? pattern.mode cursor).map (·.whole) =
      leftmost ((literalRegex word).ends pattern.mode) cursor.before cursor.rest)
    (caseful : pattern.mode.ignoreCase = false) (replacement : Text) (limit : Nat) (cursor : Cursor) (touching : Bool)
    (enough : cursor.rest.length < limit) :
    Pattern.replaceFrom replacement cursor (pattern.regex.plan.matchesFrom pattern.mode limit cursor touching) =
      Text.substitute word replacement cursor.rest := by
  induction limit generalizing cursor touching with
  | zero => omega
  | succ limit ih =>
    obtain ⟨before, text⟩ := cursor
    have found := searches ⟨before, text⟩
    unfold Regex.search? at found
    simp only [Plan.matchesFrom]
    rcases exists_first word text with absent | ⟨gap, rest, rfl, first⟩
    · rw [leftmost_of_absent caseful absent, Option.map_eq_none_iff] at found
      rw [found, (substitute_of_absent absent replacement).1]
      rfl
    · rw [leftmost_of_first caseful first] at found
      obtain ⟨⟨m, groups⟩, search, rfl⟩ := Option.map_eq_some_iff.mp found
      have read : Match.isEmpty ⟨⟨gap.reverse ++ before, word ++ rest⟩, ⟨word.reverse ++ (gap.reverse ++ before), rest⟩⟩ =
          false := by
        rw [Match.isEmpty, Match.text, Cursor.upTo_of_rest rfl]
        simpa using nonempty
      have length := List.length_pos_iff.mpr nonempty
      simp only [List.length_append] at enough
      rw [search]
      simp only [read, Bool.false_eq_true, if_false, Pattern.replaceFrom]
      rw [ih _ true (by simp only; omega), (substitute_of_first nonempty first replacement).1,
        Cursor.upTo_of_rest (List.append_assoc gap word rest)]

/-- A pattern that is read as a word replaces the word, all over or only where it occurs first. -/
theorem replace_literal (nonempty : word ≠ []) (same : Regrouped pattern.regex (literalRegex word))
    (caseful : pattern.mode.ignoreCase = false) (haystack replacement : Text) :
    pattern.replace haystack replacement =
      if pattern.isGlobal then Text.substitute word replacement haystack
      else Text.substituteFirst word replacement haystack := by
  have steady : pattern.regex.isSteady := by
    rw [same.isSteady_eq]
    exact isSteady_literalRegex word
  have searches (cursor : Cursor) : (pattern.regex.search? pattern.mode cursor).map (·.whole) =
      leftmost ((literalRegex word).ends pattern.mode) cursor.before cursor.rest := by
    rw [map_whole_search? steady pattern.straight_plan, same.ends_eq]
  unfold Pattern.replace Pattern.findAll
  split
  next => exact replaceFrom_matchesFrom nonempty searches caseful replacement _ _ false (Nat.lt_succ_self _)
  next =>
    rw [Pattern.find?_eq_leftmost steady, same.ends_eq]
    rcases exists_first word haystack with absent | ⟨gap, rest, rfl, first⟩
    · rw [leftmost_of_absent caseful absent, (substitute_of_absent absent replacement).2]
      rfl
    · rw [leftmost_of_first caseful first, (substitute_of_first nonempty first replacement).2]
      have before : (Cursor.start (gap ++ word ++ rest)).upTo ⟨gap.reverse ++ [], word ++ rest⟩ = gap :=
        Cursor.upTo_of_rest (List.append_assoc gap word rest)
      simp only [Option.toList_some, Pattern.replaceFrom, before]

theorem exists_word (text : Text) (flags : FlagSet) (known : flags.error? = none) :
    ∃ pattern, Builder.compile ⟨[], .literal text, [], flags⟩ = .ok pattern ∧
      Regrouped pattern.regex (literalRegex text.collapseBackslashes) ∧ pattern.flags = flags := by
  obtain ⟨pattern, compiles, regex, same⟩ := exists_of_simple (cuts_characters text) (simple_characters _) known
  refine ⟨pattern, ?_, ?_, same⟩
  · rw [Builder.compile, source_text, List.nil_append, List.append_nil, compiles]
  · rw [regex]
    exact .seqAll_chain _

/-- A text that is not empty compiles, and what its pattern replaces is the word that the text stands for: wherever it
stands from left to right, or, if not all matches are asked for, where it stands first. -/
theorem replace_eq_substitute {text : Text} (nonempty : text ≠ []) :
    (∃ pattern, (Builder.of (.text text)).compile = .ok pattern ∧ ∀ haystack replacement,
      pattern.replace haystack replacement = Text.substitute text.collapseBackslashes replacement haystack) ∧
    ∃ builder pattern, (Builder.of (.text text)).apply (.findAll false) = .ok builder ∧
      builder.compile = .ok pattern ∧ ∀ haystack replacement,
        pattern.replace haystack replacement = Text.substituteFirst text.collapseBackslashes replacement haystack := by
  have word : text.collapseBackslashes ≠ [] := collapse_ne_nil nonempty
  have replaces (flags : FlagSet) (known : flags.error? = none) (caseful : flags.contains 'i' = false) :
      ∃ pattern, Builder.compile ⟨[], .literal text, [], flags⟩ = .ok pattern ∧ ∀ haystack replacement,
        pattern.replace haystack replacement =
          if flags.contains 'g' then Text.substitute text.collapseBackslashes replacement haystack
          else Text.substituteFirst text.collapseBackslashes replacement haystack := by
    obtain ⟨pattern, compiles, same, rfl⟩ := exists_word text flags known
    exact ⟨pattern, compiles, replace_literal word same caseful⟩
  obtain ⟨all, compilesAll, replacesAll⟩ := replaces .standard (by decide) (by decide)
  obtain ⟨one, compilesOne, replacesOne⟩ := replaces (.set .standard 'g' false) (by decide) (by decide)
  exact ⟨⟨all, compilesAll, replacesAll⟩, _, one, rfl, compilesOne, replacesOne⟩

/-- A word that overlaps with itself, and a replacement that begins like a reference to a group. -/
theorem replace_eq_substitute_of_overlap :
    let text : Text := ['a', 'a']
    text ≠ [] ∧
      (∃ pattern, (Builder.of (.text text)).compile = .ok pattern ∧
        pattern.replace ['a', 'a', 'a', 'é', 'a', 'a'] ['$', '0'] = ['$', '0', 'a', 'é', '$', '0']) ∧
      ∃ builder pattern, (Builder.of (.text text)).apply (.findAll false) = .ok builder ∧
        builder.compile = .ok pattern ∧
        pattern.replace ['a', 'a', 'a', 'é', 'a', 'a'] ['$', '0'] = ['$', '0', 'a', 'é', 'a', 'a'] := by
  intro text
  have nonempty : text ≠ [] := by decide
  obtain ⟨⟨all, compilesAll, replacesAll⟩, builder, one, built, compilesOne, replacesOne⟩ :=
    replace_eq_substitute nonempty
  refine ⟨nonempty, ⟨all, compilesAll, ?_⟩, builder, one, built, compilesOne, ?_⟩
  · rw [replacesAll]
    simp [text, Text.collapseBackslashes, Text.substitute]
  · rw [replacesOne]
    decide

end Patterns

end Proofs.Substitution
end FluentPattern
