import FluentPattern.Proofs.FirstMatches

/-! Choices of texts. A list of texts is read as an alternation with one branch for each of them, in their order, so a
search finds the first place where one of the words stands, and of the words that stand there the one that is listed
first, even if it is a part of a later one. Anchors stand around all branches together. -/

namespace FluentPattern

namespace Regex

variable {regexes : List Regex} {mode : Mode}

theorem altAll_of_forall {motive : Regex → Prop} (nonempty : regexes ≠ []) (last : ∀ regex ∈ regexes, motive regex)
    (alt : ∀ first ∈ regexes, ∀ rest, motive rest → motive (.alt first rest)) : motive (altAll regexes) := by
  induction regexes with
  | nil => exact absurd rfl nonempty
  | cons regex rest ih =>
    cases rest with
    | nil => exact last regex List.mem_cons_self
    | cons next rest =>
      refine alt regex List.mem_cons_self _ (ih (List.cons_ne_nil _ _) ?_ ?_)
      · exact fun other member => last other (List.mem_cons_of_mem _ member)
      · exact fun other member => alt other (List.mem_cons_of_mem _ member)

theorem altAll_cons (regex : Regex) (nonempty : regexes ≠ []) :
    altAll (regex :: regexes) = .alt regex (altAll regexes) := by
  obtain ⟨next, rest, rfl⟩ := List.exists_cons_of_ne_nil nonempty
  rfl

theorem eq_flatMap_altAll {α : Type} (listed : Regex → List α)
    (alt : ∀ first second, listed (.alt first second) = listed first ++ listed second) (nonempty : regexes ≠ []) :
    listed (altAll regexes) = regexes.flatMap listed := by
  induction regexes with
  | nil => exact absurd rfl nonempty
  | cons regex rest ih =>
    by_cases alone : rest = []
    · simp [alone, altAll]
    · rw [altAll_cons regex alone, alt, ih alone, List.flatMap_cons]

theorem ends_altAll (nonempty : regexes ≠ []) (cursor : Cursor) :
    (altAll regexes).ends mode cursor = regexes.flatMap (·.ends mode cursor) :=
  eq_flatMap_altAll (ends mode · cursor) (fun _ _ => by rw [ends]) nonempty

theorem layout_altAll (nonempty : regexes ≠ []) : (altAll regexes).layout = regexes.flatMap layout :=
  eq_flatMap_altAll layout (fun _ _ => by rw [layout]) nonempty

theorem isSteady_altAll (nonempty : regexes ≠ []) (steady : ∀ regex ∈ regexes, regex.isSteady) :
    (altAll regexes).isSteady := by
  refine altAll_of_forall nonempty steady fun first member rest later => ?_
  rw [isSteady, steady first member, later]
  rfl

/-- An alternation is as deep as its branches, and a group deeper where it is not the rest of another one. -/
theorem depth_altAll_le {limit : Nat} (several : 1 < regexes.length)
    (branch : ∀ regex ∈ regexes, regex.depth mode .branch ≤ limit)
    (alternation : ∀ regex ∈ regexes, regex.depth mode .alternation ≤ limit) (surroundings : Surroundings) :
    (altAll regexes).depth mode surroundings ≤ limit + 2 := by
  have whole (rest : List Regex) (nonempty : rest ≠ []) (inside : rest ⊆ regexes) :
      (altAll rest).depth mode .alternation ≤ limit := by
    refine altAll_of_forall (motive := (depth mode · .alternation ≤ limit)) nonempty ?_ ?_
    · exact fun regex member => alternation regex (inside member)
    · intro first member rest later
      exact Nat.max_le.mpr ⟨branch first (inside member), later⟩
  match regexes with
  | first :: second :: rest =>
    have later := whole (second :: rest) (List.cons_ne_nil _ _) (List.subset_cons_self _ _)
    have first := branch first List.mem_cons_self
    simp only [altAll, depth]
    split <;> omega

end Regex

namespace Proofs.TextChoices
open Regex Tokens NodeReading TextCompiling LiteralMatching FirstMatches

section Light

variable {regexes : List Regex} {branches : List (List Regex)} {mode : Mode}

theorem light_altAll (several : 1 < regexes.length) (light : ∀ regex ∈ regexes, Light mode (.capture none regex))
    (branch : ∀ regex ∈ regexes, regex.depth mode .branch ≤ 2)
    (alternation : ∀ regex ∈ regexes, regex.depth mode .alternation ≤ 2) : Light mode (altAll regexes) := by
  have nonempty : regexes ≠ [] := List.length_pos_iff.mp (Nat.zero_lt_of_lt several)
  have all : ∀ regex ∈ regexes,
      regex.isPlain ∧ regex.hasReversedBounds = false ∧ regex.hasSmallCounts ∧ regex.heavySize mode = 0 := by
    intro regex member
    have inside := light regex member
    exact ⟨inside.plain, inside.straight, inside.small, inside.weightless⟩
  obtain ⟨plain, straight, small, weightless⟩ := altAll_of_forall nonempty all fun first member rest later => by
    simp only [isPlain, hasReversedBounds, hasSmallCounts, heavySize, all first member, later, Bool.and_self,
      Bool.or_self, and_self]
  refine ⟨?_, plain, straight, small, weightless, depth_altAll_le several branch alternation⟩
  obtain ⟨first, rest, rfl⟩ := List.exists_cons_of_ne_nil nonempty
  have some : rest ≠ [] := List.length_pos_iff.mp (Nat.lt_of_succ_lt_succ several)
  rw [altAll_cons first some]
  rfl

theorem light_inSequence (nonempty : branches ≠ []) (simple : ∀ branch ∈ branches, ∀ piece ∈ branch, Simple piece) :
    ∀ piece ∈ inSequence branches, Light mode piece := by
  by_cases alone : branches.length = 1
  · obtain ⟨pieces, rfl⟩ := List.length_eq_one_iff.mp alone
    exact fun piece member => (simple pieces List.mem_cons_self piece member).light mode
  · have several : 1 < (branches.map seqAll).length := by
      have some := List.length_pos_iff.mpr nonempty
      rw [List.length_map]
      omega
    rw [inSequence_of_ne alone, List.forall_mem_singleton, ofLayout]
    apply light_altAll several
    all_goals rw [List.forall_mem_map]
    · exact fun branch member => Simple.light_capture (simple branch member) none mode
    · exact fun branch member => Simple.depth_seqAll_le (simple branch member) mode .branch
    · exact fun branch member => Simple.depth_seqAll_le (simple branch member) mode .alternation

end Light

def branches (words : List Text) : List (List Regex) := words.map characters

theorem branches_ne_nil {words : List Text} (nonempty : words ≠ []) : branches words ≠ [] := by
  simpa [branches] using nonempty

structure Listed (node : Node) (words : List Text) : Prop where
  nonempty : words ≠ []
  solid : node.isEmpty = false
  choice : words.length = 1 ↔ node.isChoice = false
  text : ∃ tokens, Cuts .engine node.render tokens ∧ Gives .engine tokens (branches words) ∧
    ∀ depth rest, nesting depth (tokens ++ rest) = nesting depth rest

namespace Listed

variable {node other : Node} {words more texts : List Text}

theorem literal (text : Text) : Listed (.literal text) [text.collapseBackslashes] := by
  refine ⟨List.cons_ne_nil _ _, rfl, by simp [Node.literal, Node.isChoice], _, cuts_characters text, .items _, ?_⟩
  exact fun depth => nesting_items_append depth _

theorem orElse (one : Listed node words) (another : Listed other more) :
    Listed (.choice node other) (words ++ more) := by
  obtain ⟨tokens, cuts, gives, flat⟩ := one.text
  obtain ⟨tokens', cuts', gives', flat'⟩ := another.text
  refine ⟨List.append_ne_nil_of_left_ne_nil one.nonempty more, rfl, ?_, _, cuts.bar cuts', ?_, ?_⟩
  · have first := List.length_pos_iff.mpr one.nonempty
    have second := List.length_pos_iff.mpr another.nonempty
    simp only [List.length_append, Node.isChoice, Bool.true_eq_false, iff_false]
    omega
  · rw [branches, List.map_append]
    exact gives.bar gives' (branches_ne_nil one.nonempty) (branches_ne_nil another.nonempty)
  · intro depth rest
    rw [List.append_assoc, List.append_assoc, flat]
    exact flat' depth rest

theorem foldl (listed : Listed node words) (texts : List Text) :
    Listed ((texts.map .literal).foldl .choice node) (words ++ texts.map Text.collapseBackslashes) := by
  induction texts generalizing node words with
  | nil => simpa using listed
  | cons text texts ih =>
    have next := ih (listed.orElse (literal text))
    rwa [List.append_assoc] at next

theorem choiceAll (nonempty : texts ≠ []) :
    Listed (.choiceAll (texts.map .literal)) (texts.map Text.collapseBackslashes) := by
  obtain ⟨text, texts, rfl⟩ := List.exists_cons_of_ne_nil nonempty
  have kept : ((text :: texts).map Node.literal).filter (!·.isEmpty) = (text :: texts).map .literal := by
    simp [Node.literal, Node.isEmpty]
  rw [Node.choiceAll, Node.joinAll, kept]
  exact (literal text).foldl texts

end Listed

section Words

variable {words : List Text} {mode : Mode} {haystack : Text}

def choiceOf (words : List Text) : Regex := altAll (words.map literalRegex)

theorem layout_choiceOf (nonempty : words ≠ []) : (choiceOf words).layout = branches words := by
  rw [choiceOf, layout_altAll (by simpa using nonempty)]
  simp only [List.flatMap_map, layout_literalRegex]
  exact List.map_eq_flatMap.symm

theorem isSteady_choiceOf (nonempty : words ≠ []) : (choiceOf words).isSteady := by
  refine isSteady_altAll (by simpa using nonempty) fun regex member => ?_
  obtain ⟨word, -, rfl⟩ := List.mem_map.mp member
  exact isSteady_literalRegex word

theorem ends_choiceOf (nonempty : words ≠ []) (cursor : Cursor) :
    (choiceOf words).ends mode cursor = words.flatMap fun word => (literalRegex word).ends mode cursor := by
  rw [choiceOf, ends_altAll (by simpa using nonempty), List.flatMap_map]

theorem canMatch_choiceOf (caseful : mode.ignoreCase = false) (nonempty : words ≠ []) {m : Match} :
    CanMatch (choiceOf words) mode haystack m ↔ ∃ word ∈ words, Occurs word haystack m := by
  constructor
  · rintro ⟨within, leads⟩
    rw [ends_choiceOf nonempty] at leads
    obtain ⟨word, listed, leads⟩ := List.mem_flatMap.mp leads
    exact ⟨word, listed, (canMatch_literalRegex caseful).mp ⟨within, leads⟩⟩
  · rintro ⟨word, listed, occurs⟩
    obtain ⟨within, leads⟩ := (canMatch_literalRegex caseful).mpr occurs
    exact ⟨within, ends_choiceOf nonempty m.start ▸ List.mem_flatMap.mpr ⟨word, listed, leads⟩⟩

theorem takes_choiceOf (caseful : mode.ignoreCase = false) (nonempty : words ≠ []) :
    (choiceOf words).Takes mode haystack ↔ haystack ∈ words := by
  constructor
  · rintro ⟨place, leads, stop⟩
    rw [ends_choiceOf nonempty] at leads
    obtain ⟨word, listed, leads⟩ := List.mem_flatMap.mp leads
    exact (takes_literalRegex caseful word haystack).mp ⟨place, leads, stop⟩ ▸ listed
  · intro listed
    obtain ⟨place, leads, stop⟩ := (takes_literalRegex caseful haystack haystack).mpr rfl
    exact ⟨place, ends_choiceOf nonempty _ ▸ List.mem_flatMap.mpr ⟨haystack, listed, leads⟩, stop⟩

/-- A branch that leads nowhere leaves the choice to the later ones. -/
theorem head?_ends_choiceOf (caseful : mode.ignoreCase = false) (nonempty : words ≠ []) {cursor place : Cursor} :
    ((choiceOf words).ends mode cursor).head? = some place ↔
      ∃ word, words.find? (· <+: cursor.rest) = some word ∧ place ∈ (literalRegex word).ends mode cursor := by
  rw [ends_choiceOf nonempty]
  clear nonempty
  induction words with
  | nil => simp
  | cons word words ih =>
    rw [List.flatMap_cons, List.find?_cons]
    have leads := ends_literalRegex caseful word cursor.before cursor.rest
    by_cases here : word <+: cursor.rest
    · simp [leads, here, eq_comm]
    · simpa [leads, here] using ih

theorem head?_ends_of_occurs (caseful : mode.ignoreCase = false) (nonempty : words ≠ []) {m : Match}
    (some : ∃ word ∈ words, Occurs word haystack m) :
    ((choiceOf words).ends mode m.start).head? = .some m.stop ↔ words.find? (· <+: m.start.rest) = .some m.text := by
  rw [head?_ends_choiceOf caseful nonempty]
  constructor
  · rintro ⟨word, first, leads⟩
    obtain ⟨_, -, occurs⟩ := some
    rw [first, ((canMatch_literalRegex caseful).mp ⟨occurs.within, leads⟩).text_eq]
  · intro first
    obtain ⟨word, -, occurs⟩ := some
    refine ⟨m.text, first, ?_⟩
    rw [occurs.text_eq]
    exact ((canMatch_literalRegex caseful).mpr occurs).leads

end Words

section Patterns

variable {node : Node} {words : List Text} {flags : FlagSet}

private theorem simple_branches (words : List Text) : ∀ branch ∈ branches words, ∀ piece ∈ branch, Simple piece := by
  intro branch listed
  obtain ⟨word, -, rfl⟩ := List.mem_map.mp listed
  exact simple_characters word

private theorem regrouped_branches (nonempty : words ≠ []) :
    Regrouped (ofLayout (branches words)) (choiceOf words) := by
  rw [← layout_choiceOf nonempty]
  exact regrouped_flatten _

theorem exists_pattern_of_listed (listed : Listed node words) (known : flags.error? = none) :
    ∃ pattern, Builder.compile ⟨[], node, [], flags⟩ = .ok pattern ∧ Regrouped pattern.regex (choiceOf words) ∧
      pattern.flags = flags := by
  obtain ⟨tokens, cuts, gives, flat⟩ := listed.text
  have some := branches_ne_nil listed.nonempty
  have solid : Solid (branches words) := layout_choiceOf listed.nonempty ▸ solid_layout _
  have shallow : nesting 0 tokens ≤ nestingLimit := by
    rw [← List.append_nil tokens, flat]
    exact Nat.zero_le _
  have light : ∀ piece ∈ inSequence (branches words), Light flags.mode piece :=
    light_inSequence some (simple_branches words)
  obtain ⟨pattern, compiles, regex, same⟩ := exists_of_branches cuts gives some solid shallow light known
  refine ⟨pattern, ?_, regex ▸ regrouped_branches listed.nonempty, same⟩
  simpa [Builder.compile, Builder.source, listed.solid, Builder.isAnchored] using compiles

private theorem exists_side (listed : Listed node words) :
    ∃ tokens, Cuts .engine (if node.isChoice then grouped node.render else node.render) tokens ∧
      Gives .engine tokens [inSequence (branches words)] ∧
      ∀ rest, nesting 0 (tokens ++ rest) ≤ max 1 (nesting 0 rest) := by
  obtain ⟨tokens, cuts, gives, flat⟩ := listed.text
  cases choice : node.isChoice with
  | false =>
    obtain ⟨word, rfl⟩ := List.length_eq_one_iff.mp (listed.choice.mpr choice)
    exact ⟨tokens, cuts, gives, fun rest => flat 0 rest ▸ Nat.le_max_right ..⟩
  | true =>
    have several : (branches words).length ≠ 1 := by
      intro one
      rw [branches, List.length_map, listed.choice, choice] at one
      cases one
    refine ⟨_, (cutsItem_grouped cuts).cuts, ?_, fun rest => ?_⟩
    · rw [← layout_choiceOf listed.nonempty] at gives several ⊢
      rw [inSequence_of_ne several]
      exact gives.group .plain
    · simp only [List.cons_append, List.nil_append, List.append_assoc, nesting, flat]
      exact Nat.max_le.mpr ⟨Nat.zero_le _, Nat.le_refl _⟩

/-- Between anchors, a group is around the branches if there are several. -/
theorem exists_anchored_of_listed (listed : Listed node words) (known : flags.error? = none) :
    ∃ pattern, Builder.compile ⟨['^'], node, ['$'], flags⟩ = .ok pattern ∧
      Regrouped pattern.regex (.seq .atStart (.seq (choiceOf words) .atEnd)) ∧ pattern.flags = flags := by
  obtain ⟨tokens, cuts, gives, shallow⟩ := exists_side listed
  have whole : Gives .engine ([.item .atStart] ++ tokens ++ [.item .atEnd])
      [[.atStart] ++ inSequence (branches words) ++ [.atEnd]] :=
    ((Gives.items [.atStart]).append gives).append (.items [.atEnd])
  have flat : nesting 0 ([.item .atStart] ++ tokens ++ [.item .atEnd]) ≤ nestingLimit :=
    (shallow [.item .atEnd]).trans (by decide)
  have light : ∀ piece ∈ [.atStart] ++ inSequence (branches words) ++ [.atEnd], Light flags.mode piece := by
    simp only [List.forall_mem_append, List.forall_mem_singleton]
    have some := branches_ne_nil listed.nonempty
    exact ⟨⟨Simple.atStart.light _, light_inSequence some (simple_branches words)⟩, Simple.atEnd.light _⟩
  obtain ⟨pattern, compiles, regex, same⟩ :=
    exists_of_light ((cutsItem_start.cuts.append cuts).append cutsItem_end.cuts) whole flat light known
  refine ⟨pattern, ?_, ?_, same⟩
  · simpa [Builder.compile, Builder.source, listed.solid, Builder.isAnchored] using compiles
  · rw [regex]
    refine .trans (.seqAll_chain _) (.seq (.refl _) (.trans (.chain_append _ _) (.seq ?_ (.seq_empty _))))
    exact .trans (.chain_inSequence _) (regrouped_branches listed.nonempty)

/-- What a pattern finds that is read as some words. -/
theorem find?_of_choiceOf {pattern : Pattern} (same : Regrouped pattern.regex (choiceOf words)) (nonempty : words ≠ [])
    (caseful : pattern.mode.ignoreCase = false) (haystack : Text) :
    (pattern.find? haystack = none ↔ ∀ word ∈ words, ¬word <:+: haystack) ∧
      ∀ m, pattern.find? haystack = some m ↔
        StartsFirst (fun m => ∃ word ∈ words, Occurs word haystack m) m ∧
          words.find? (· <+: m.start.rest) = some m.text := by
  have steady := isSteady_choiceOf nonempty
  have candidates (m : Match) :
      CanMatch (choiceOf words) pattern.mode haystack m ↔ ∃ word ∈ words, Occurs word haystack m :=
    canMatch_choiceOf caseful nonempty
  constructor
  · rw [Pattern.find?_eq_none_iff same steady]
    simp only [candidates, ← Occurs.exists_iff]
    grind
  · intro m
    rw [Pattern.find?_eq_some_iff same steady, startsFirst_congr candidates]
    exact and_congr_right fun first => head?_ends_of_occurs caseful nonempty first.isCandidate

/-- A choice of texts finds the leftmost place where one of the words stands that the texts stand for, and there the
first of the words that stand there; between anchors it matches the words and nothing else. -/
theorem find?_choice_of_texts {texts : List Text} (nonempty : texts ≠ []) :
    let words := texts.map Text.collapseBackslashes
    (∃ pattern, (Builder.anyOfAll (texts.map .text)).compile = .ok pattern ∧ ∀ haystack,
      (pattern.find? haystack = none ↔ ∀ word ∈ words, ¬word <:+: haystack) ∧
      ∀ m, pattern.find? haystack = some m ↔
        StartsFirst (fun m => ∃ word ∈ words, Occurs word haystack m) m ∧
          words.find? (· <+: m.start.rest) = some m.text) ∧
    ∃ builder pattern,
      (Builder.anyOfAll (texts.map .text)).run [.assertStart true, .assertEnd true, .removeFlags ['m']] = .ok builder ∧
      builder.compile = .ok pattern ∧ ∀ haystack, pattern.isMatch haystack ↔ haystack ∈ words := by
  intro words
  have some : words ≠ [] := by simpa [words] using nonempty
  have listed : Listed (Node.choiceAll (texts.map .literal)) words := .choiceAll nonempty
  have builder : Builder.anyOfAll (texts.map .text) = ⟨[], .choiceAll (texts.map .literal), [], .standard⟩ := by
    rw [Builder.anyOfAll, List.map_map]
    rfl
  have known : FlagSet.standard.error? = none ∧ (FlagSet.standard.difference ['m']).error? = none := by decide
  constructor
  · obtain ⟨pattern, compiles, same, flags⟩ := exists_pattern_of_listed listed known.1
    have caseful : pattern.mode.ignoreCase = false := by
      rw [Pattern.mode, flags]
      decide
    exact ⟨pattern, builder ▸ compiles, find?_of_choiceOf same some caseful⟩
  · obtain ⟨pattern, compiles, same, flags⟩ := exists_anchored_of_listed listed known.2
    have caseful : pattern.mode.ignoreCase = false := by
      rw [Pattern.mode, flags]
      decide
    have single : pattern.mode.multiLine = false := by
      rw [Pattern.mode, flags]
      decide
    refine ⟨_, pattern, by rw [builder]; rfl, compiles, fun haystack => ?_⟩
    rw [Pattern.isMatch_iff_takes same (isSteady_choiceOf some) single, takes_choiceOf caseful some]

/-- A word before one that begins with it, and the empty word after both. -/
theorem find?_choice_of_prefixes :
    let texts : List Text := [['a'], ['a', 'b'], []]
    texts ≠ [] ∧
    (∃ pattern, (Builder.anyOfAll (texts.map .text)).compile = .ok pattern ∧
      pattern.find? ['a', 'b'] = some ⟨⟨[], ['a', 'b']⟩, ⟨['a'], ['b']⟩⟩ ∧
      pattern.find? ['b', 'a'] = some ⟨⟨[], ['b', 'a']⟩, ⟨[], ['b', 'a']⟩⟩) ∧
    ∃ builder pattern,
      (Builder.anyOfAll (texts.map .text)).run [.assertStart true, .assertEnd true, .removeFlags ['m']] = .ok builder ∧
      builder.compile = .ok pattern ∧ pattern.isMatch ['a', 'b'] ∧ pattern.isMatch [] ∧ ¬pattern.isMatch ['b'] := by
  intro texts
  have nonempty : texts ≠ [] := List.cons_ne_nil _ _
  obtain ⟨⟨free, compiles, finds⟩, builder, anchored, built, compiles', matching⟩ := find?_choice_of_texts nonempty
  refine ⟨nonempty, ⟨free, compiles, ?_, ?_⟩, builder, anchored, built, compiles', ?_⟩
  · rw [(finds _).2]
    exact ⟨⟨⟨['a'], by decide, .between [] ['a'] ['b']⟩, fun _ _ => Nat.zero_le _⟩, by decide⟩
  · rw [(finds _).2]
    exact ⟨⟨⟨[], by decide, .between [] [] ['b', 'a']⟩, fun _ _ => Nat.zero_le _⟩, by decide⟩
  · simp only [matching]
    decide

end Patterns

end Proofs.TextChoices
end FluentPattern
