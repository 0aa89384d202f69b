import FluentPattern.Builder.Step
import FluentPattern.Proofs.TakingApart
import FluentPattern.Proofs.TextPairs

/-! Compiled patterns as values of steps. A pattern enters a tree as raw text, and where the tree is written, nothing is
known of that text but its length. So it is a unit for what stands around it exactly as far as the text happens to be
one: where no bar stands outside of its groups and no token runs on from it or into it. -/

namespace FluentPattern.Proofs.PatternUnits
open Regex Tokens GroupReading TextPairs Pattern

/-- The text that a pattern enters a tree as. -/
def body (pattern : Pattern) : Text := if pattern.source = emptyGroup then [] else pattern.source

/-- Whether the text of a pattern has no anchor at either end that a builder could take over. -/
def Bare (pattern : Pattern) : Prop := pattern.source.head? ≠ some '^' ∧ pattern.source.getLast? ≠ some '$'

instance (pattern : Pattern) : Decidable (Bare pattern) := inferInstanceAs (Decidable (_ ∧ _))

theorem of_pattern {pattern : Pattern} (bare : Bare pattern) :
    Builder.of (.pattern pattern) = ⟨[], .exact (body pattern), [], pattern.flags⟩ := by
  obtain ⟨front, text, back, parts, start, stop, whole⟩ := TakingApart.exists_parts pattern
  have unanchored : (TakingApart.glyphs pattern.source).getLast? ≠ some ['$'] := by
    intro last
    obtain ⟨earlier, same⟩ := List.getLast?_eq_some_iff.mp last
    have source := TakingApart.flatten_glyphs pattern.source
    rw [same, List.flatten_concat] at source
    exact bare.2 (source ▸ List.getLast?_concat)
  rw [if_neg bare.1] at start
  rw [if_neg unanchored] at stop
  rw [start, stop, List.nil_append, List.append_nil] at whole
  rw [parts, start, stop, whole]
  rfl

def ReadsLike (text whole : Text) : Prop :=
  ∀ other, Regex.read .engine whole = .ok other → ∃ one, Regex.read .engine text = .ok one ∧ Regrouped one other

/-- A builder compiles where a text does, to a pattern that matches alike. -/
structure StandsFor (builder : Builder) (whole : Text) : Prop where
  reads : ReadsLike builder.source whole
  compiles : ∀ other, Pattern.compile whole builder.flags.letters = .ok other →
    ∃ one, builder.compile = .ok one ∧ SameMatches one other

/-- A builder is read like a text. If that is plain, the builder compiles where the text does and matches alike; in any
case both find the same spans, as long as no pass of an unlimited repetition can be empty. -/
structure ReadsFor (builder : Builder) (whole : Text) : Prop where
  reads : ReadsLike builder.source whole
  compiles : ∀ other, Pattern.compile whole builder.flags.letters = .ok other → other.regex.isPlain →
    ∃ one, builder.compile = .ok one ∧ SameMatches one other
  spans : ∀ one other, builder.compile = .ok one → Pattern.compile whole builder.flags.letters = .ok other →
    other.regex.isSteady → SameSpans one other

theorem spells_source (pattern : Pattern) :
    ∃ inside, Spells .engine pattern.source inside ∧ inside.whole = pattern.regex :=
  read_eq_ok_iff.mp pattern.read_source

theorem spells_body (pattern : Pattern) :
    ∃ inside, Spells .engine (body pattern) inside ∧ inside.whole = pattern.regex := by
  unfold body
  split
  next empty =>
    have reads := pattern.read_source
    rw [empty] at reads
    exact ⟨{}, .nil _, Except.ok.inj reads⟩
  next => exact spells_source pattern

theorem stands_grouped (pattern : Pattern) :
    ∃ inside, inside.whole = pattern.regex ∧ Stands .engine (body pattern) inside (grouped pattern.source) := by
  obtain ⟨inside, spells, means⟩ := spells_body pattern
  obtain ⟨inside', spells', means'⟩ := spells_source pattern
  refine ⟨inside, means, spells, _, means ▸ means' ▸ spells'.grouped, ?_⟩
  refine Nat.le_trans ?_ (nesting_group spells' .plain)
  unfold body
  split
  · exact Nat.zero_le _
  · exact Nat.le_refl _

private theorem limits_of_compile {text : Text} {flags : FlagSet} {pattern : Pattern} (nonempty : text ≠ [])
    (compiled : Pattern.compile text flags.letters = .ok pattern) :
    pattern.flags = flags ∧ nesting 0 (cut .engine text) ≤ nestingLimit ∧
      ∀ part ∈ pattern.regex.plan.wholes, automatonFault? flags.mode part = none := by
  obtain ⟨source, known⟩ := compile_eq_ok_iff.mp compiled
  rw [if_neg nonempty] at source
  rw [FlagSet.ofText_letters] at known
  have limits := limitFault?_eq_none_iff.mp pattern.within_limits
  rw [source, known] at limits
  exact ⟨known, limits⟩

section Pairs

variable {front back front' back' : Text} {one other : Branches}

theorem readsLike_iff (left : Stands .engine front one front') (right : Stands .engine back other back') :
    ReadsLike (front ++ back) (front' ++ back') ↔ Separate .engine front back := by
  constructor
  · intro reads
    obtain ⟨regex, readsText, same⟩ := reads _ (left.read_eq right)
    exact separate_of_regrouped left.spells right.spells readsText same
  · intro separate regex readsWhole
    obtain ⟨both, spells, ungrouped⟩ := separate.spells left.spells right.spells
    obtain rfl := Except.ok.inj ((left.read_eq right).symm.trans readsWhole)
    exact ⟨_, spells.read_eq, ungrouped.resequenced.regrouped⟩

private theorem compile_pair {flags : FlagSet} {pattern : Pattern} (left : Stands .engine front one front')
    (right : Stands .engine back other back')
    (compiled : Pattern.compile (front' ++ back') flags.letters = .ok pattern) :
    pattern.flags = flags ∧ pattern.regex = paired one other ∧
      nesting 0 (cut .engine (front' ++ back')) ≤ nestingLimit ∧
      ∀ part ∈ (paired one other).plan.wholes, automatonFault? flags.mode part = none := by
  obtain ⟨_, item, _⟩ := left.item
  have text : front' ++ back' ≠ [] := fun none => item.cuts.ne_nil (List.append_eq_nil_iff.mp none).1
  have means : pattern.regex = paired one other :=
    Except.ok.inj ((read_of_compile compiled).symm.trans (left.read_eq right))
  obtain ⟨known, limits⟩ := limits_of_compile text compiled
  exact ⟨known, means, means ▸ limits⟩

private theorem exists_pair {flags : FlagSet} {pattern : Pattern} (left : Stands .engine front one front')
    (right : Stands .engine back other back') (joins : Joins .engine front back)
    (compiled : Pattern.compile (front' ++ back') flags.letters = .ok pattern) {both : Branches}
    (spells : Spells .engine (front ++ back) both)
    (fits : ∀ part ∈ both.whole.plan.wholes, automatonFault? flags.mode part = none) :
    ∃ found, Pattern.compile (front ++ back) flags.letters = .ok found ∧ found.regex = both.whole ∧
      found.flags = flags := by
  obtain ⟨known, _, shallow, _⟩ := compile_pair left right compiled
  refine exists_of_read (known ▸ pattern.flags_known) spells.read_eq (limitFault?_eq_none_iff.mpr ⟨?_, fits⟩)
  exact Nat.le_trans (left.nesting_le right joins) shallow

/-- Plain texts that stand together as in groups compile and match like in groups. -/
theorem exists_of_isPlain {flags : FlagSet} {pattern : Pattern} (left : Stands .engine front one front')
    (right : Stands .engine back other back') (separate : Separate .engine front back)
    (compiled : Pattern.compile (front' ++ back') flags.letters = .ok pattern) (plain : pattern.regex.isPlain) :
    ∃ found, Pattern.compile (front ++ back) flags.letters = .ok found ∧ SameMatches found pattern := by
  obtain ⟨both, spells, ungrouped⟩ := separate.spells left.spells right.spells
  obtain ⟨known, means, shallow, fits⟩ := compile_pair left right compiled
  have same := ungrouped.resequenced
  rw [means] at plain
  have plain' : both.whole.isPlain := same.isPlain_eq.trans plain
  obtain ⟨found, compiles, regex, flags⟩ := exists_pair left right separate.1 compiled spells (by
    rw [plan_of_isPlain plain] at fits
    rw [plan_of_isPlain plain']
    simpa [Plan.wholes] using ungrouped.automatonFault? (by simpa [Plan.wholes] using fits))
  refine ⟨found, compiles, sameMatches_of_resequenced (flags.trans known.symm) ?_ (regex ▸ plain')⟩
  rw [regex, means]
  exact same

/-- Texts that stand together as in groups find the same spans as in groups, where both compile. -/
theorem sameSpans_of_separate {flags : FlagSet} {found pattern : Pattern} (left : Stands .engine front one front')
    (right : Stands .engine back other back') (separate : Separate .engine front back)
    (compiles : Pattern.compile (front ++ back) flags.letters = .ok found)
    (compiled : Pattern.compile (front' ++ back') flags.letters = .ok pattern) (steady : pattern.regex.isSteady) :
    SameSpans found pattern := by
  obtain ⟨both, spells, ungrouped⟩ := separate.spells left.spells right.spells
  obtain ⟨known, means, _⟩ := compile_pair left right compiled
  have regex : both.whole = found.regex := Except.ok.inj (spells.read_eq.symm.trans (read_of_compile compiles))
  have same : Regrouped found.regex pattern.regex := regex ▸ means ▸ ungrouped.resequenced.regrouped
  refine sameSpans_of_regrouped ?_ same (same.isSteady_eq.trans steady)
  rw [flags_of_compile compiles, known]

/-- Before a condition on the text ahead, a text that stands there as in a group matches like in a group. -/
theorem exists_of_look {flags : FlagSet} {pattern : Pattern} {ahead : Regex} (left : Stands .engine front one front')
    (right : Stands .engine back ⟨[], [.look true ahead]⟩ back') (separate : Separate .engine front back)
    (compiled : Pattern.compile (front' ++ back') flags.letters = .ok pattern) :
    ∃ found, Pattern.compile (front ++ back) flags.letters = .ok found ∧ SameMatches found pattern := by
  obtain ⟨both, spells, ungrouped⟩ := separate.spells left.spells right.spells
  obtain ⟨known, means, shallow, fits⟩ := compile_pair left right compiled
  have framed := Ungrouped.framed_eq ungrouped
  obtain ⟨found, compiles, regex, flags⟩ := exists_pair left right separate.1 compiled spells (by
    rwa [plan, framed])
  refine ⟨found, compiles, sameMatches_of_framed (flags.trans known.symm) ?_ ?_⟩
  · rw [regex, means, framed]
  · rw [regex, means, ungrouped.resequenced.groupNames_eq]

theorem readsFor_iff {builder : Builder} (left : Stands .engine front one front')
    (right : Stands .engine back other back') (source : builder.source = front ++ back) :
    ReadsFor builder (front' ++ back') ↔ Separate .engine front back := by
  have readsLike := readsLike_iff left right
  rw [← source] at readsLike
  refine ⟨fun stands => readsLike.mp stands.reads, fun separate => ⟨readsLike.mpr separate, ?_, ?_⟩⟩
  · intro pattern compiled plain
    rw [Builder.compile, source]
    exact exists_of_isPlain left right separate compiled plain
  · intro found pattern compiles compiled steady
    rw [Builder.compile, source] at compiles
    exact sameSpans_of_separate left right separate compiles compiled steady

theorem standsFor_look_iff {builder : Builder} {ahead : Regex} (left : Stands .engine front one front')
    (right : Stands .engine back ⟨[], [.look true ahead]⟩ back') (source : builder.source = front ++ back) :
    StandsFor builder (front' ++ back') ↔ Separate .engine front back := by
  have readsLike := readsLike_iff left right
  rw [← source] at readsLike
  refine ⟨fun stands => readsLike.mp stands.reads, fun separate => ⟨readsLike.mpr separate, ?_⟩⟩
  intro pattern compiled
  rw [Builder.compile, source]
  exact exists_of_look left right separate compiled

end Pairs

theorem stands_ahead (pattern : Pattern) :
    Stands .engine (Node.aheadSign true ++ body pattern ++ [')']) ⟨[], [.look true pattern.regex]⟩
      (Node.aheadSign true ++ pattern.source ++ [')']) := by
  obtain ⟨inside, spells, means⟩ := spells_body pattern
  obtain ⟨inside', spells', means'⟩ := spells_source pattern
  refine ⟨means ▸ (spells.ahead true).spells, _, means' ▸ spells'.ahead true, ?_⟩
  rw [cut, (spells.ahead true).cuts.cuts.tokens_eq]
  unfold body
  split
  next empty =>
    rw [empty]
    decide
  next => exact Nat.le_refl _

private theorem bars_of_read_empty {text : Text} (empty : Regex.read .engine text = .ok .empty) :
    bars .engine text = 0 := by
  obtain ⟨inside, spells, _⟩ := read_eq_ok_iff.mp empty
  rw [← spells.length_done, (spells.blank_iff.mpr empty).1, List.length_nil]

theorem separate_ahead_iff (p q : Pattern) :
    Separate .engine (body p) (Node.aheadSign true ++ body q ++ [')']) ↔ bars .engine (body p) = 0 := by
  obtain ⟨inside, spells, _⟩ := spells_body p
  have ahead := (stands_ahead q).spells
  constructor
  · rintro ⟨_, ⟨none, _⟩ | empty | empty⟩
    · exact none
    · exact bars_of_read_empty empty
    · rw [ahead.read_eq] at empty
      cases empty
  · intro none
    refine ⟨?_, .inl ⟨none, ahead.length_done.symm⟩⟩
    exact TokenSeams.tokens_append spells.sound (TokenSeams.barrier_of_head (by decide) (by decide) (by decide))

theorem separate_start_iff (p : Pattern) :
    Separate .engine ['^'] (body p) ↔ Joins .engine ['^'] (body p) ∧ bars .engine (body p) = 0 := by
  have start : Stands .engine ['^'] ⟨[], [.atStart]⟩ ['^'] := .start
  refine and_congr_right fun _ => ⟨?_, fun none => .inl ⟨start.spells.length_done.symm, none⟩⟩
  rintro (⟨_, none⟩ | empty | empty)
  · exact none
  · rw [start.spells.read_eq] at empty
    cases empty
  · exact bars_of_read_empty empty

private theorem cut_singleton {c : Char} {inside : Branches} (spells : Spells .engine [c] inside) (noBar : c ≠ '|') :
    ∃ regex, ∀ rest, cut .engine (c :: rest) = [.item regex] ++ tokens .engine (.outside .item) rest := by
  have sound : TokenSeams.Sound _ := spells.sound
  unfold Spells at spells
  cases sign : signBounds? c with
  | some bounds =>
    simp only [cut, tokens, sign] at sound
    exact absurd List.mem_cons_self (sound _)
  | none =>
    simp only [cut, tokens, sign] at sound spells ⊢
    split at sound
    next => exact absurd List.mem_cons_self (sound _)
    next =>
      cases spells with
      | cons step rest => cases step; cases rest
    next =>
      cases spells with
      | cons step => cases step
    next => exact absurd rfl noBar
    next => exact absurd List.mem_cons_self (sound _)
    next => exact ⟨_, fun _ => rfl⟩
    next => exact ⟨_, fun _ => rfl⟩
    next => exact ⟨_, fun _ => rfl⟩
    next => exact ⟨.char (.single c), fun rest => by simp⟩

def repeatedText (pattern : Pattern) : Text :=
  (if (body pattern).length = 1 then body pattern else grouped (body pattern)) ++ ['+']

private theorem repeated_eq {pattern : Pattern} (noBar : pattern.source ≠ ['|']) :
    Regex.read .engine (repeatedText pattern) = Regex.read .engine (grouped pattern.source ++ ['+']) ∧
      nesting 0 (cut .engine (repeatedText pattern)) ≤ nesting 0 (cut .engine (grouped pattern.source ++ ['+'])) := by
  unfold repeatedText body
  by_cases empty : pattern.source = emptyGroup
  · rw [empty]
    decide
  rw [if_neg empty]
  by_cases single : pattern.source.length = 1
  · obtain ⟨c, source⟩ := List.length_eq_one_iff.mp single
    obtain ⟨inside, spells, _⟩ := spells_source pattern
    rw [source] at spells noBar ⊢
    obtain ⟨regex, cuts⟩ := cut_singleton spells fun bar => noBar (congrArg (fun c => [c]) bar)
    have runs : Runs .engine {} [.item regex] ⟨⟨[], [regex]⟩, []⟩ := .single (.item ..)
    have whole : inside.whole = regex := by
      rw [Spells, cuts []] at spells
      cases Runs.of_append runs spells
      exact seqAll_filter_singleton regex
    have item := spells.grouped
    rw [whole] at item
    refine ⟨item.read_congr cuts runs ['+'], ?_⟩
    have text : cut .engine ([c] ++ ['+']) = [.item regex, .times ⟨1, none⟩ .greedy] := cuts ['+']
    simp only [List.length_singleton, if_true, text]
    exact Nat.zero_le _
  · rw [if_neg single]
    exact ⟨rfl, Nat.le_refl _⟩

/-- A bar is a pattern that can be repeated in a group only. -/
private theorem compile_group_bar {flags : FlagSet} (known : flags.error? = none) :
    ∃ pattern, Pattern.compile (grouped ['|'] ++ ['+']) flags.letters = .ok pattern := by
  let regex : Regex := .loop (.alt .empty .empty) ⟨1, none⟩ .greedy
  have reads : Regex.read .engine (grouped ['|'] ++ ['+']) = .ok regex := by decide
  have fits (mode : Mode) : limitFault? mode (grouped ['|'] ++ ['+']) regex = none := rfl
  obtain ⟨pattern, compiled, _⟩ := exists_of_read known reads (fits _)
  exact ⟨pattern, compiled⟩

theorem stands_repeated_iff {pattern : Pattern} {builder : Builder} (source : builder.source = repeatedText pattern)
    (flags : builder.flags = pattern.flags) :
    StandsFor builder (grouped pattern.source ++ ['+']) ↔ pattern.source ≠ ['|'] := by
  constructor
  · intro stands bar
    have text : builder.source = ['|', '+'] := by simp [source, repeatedText, body, bar, emptyGroup, grouped]
    have fails : Regex.read .engine ['|', '+'] = .error .nothingToRepeat := by decide
    rw [bar] at stands
    obtain ⟨other, compiled⟩ := compile_group_bar (flags ▸ pattern.flags_known)
    obtain ⟨one, compiles, _⟩ := stands.compiles other compiled
    have reads := read_of_compile compiles
    rw [text, fails] at reads
    cases reads
  · intro noBar
    obtain ⟨reads, shallow⟩ := repeated_eq noBar
    rw [← source] at reads shallow
    refine ⟨fun other readsWhole => ⟨other, reads.trans readsWhole, .refl _⟩, fun other compiled => ?_⟩
    have nonempty : grouped pattern.source ++ ['+'] ≠ [] := List.append_ne_nil_of_right_ne_nil _ (List.cons_ne_nil _ _)
    obtain ⟨known, within, fits⟩ := limits_of_compile nonempty compiled
    obtain ⟨one, compiles, regex, flags⟩ := exists_of_read (known ▸ other.flags_known)
      (reads.trans (read_of_compile compiled)) (limitFault?_eq_none_iff.mpr ⟨Nat.le_trans shallow within, fits⟩)
    exact ⟨one, compiles, sameMatches_of_framed (flags.trans known.symm) (regex ▸ rfl) (regex ▸ rfl)⟩

/-- A pattern that is repeated, or that something follows or comes before, is taken as a whole under exactly these
conditions: it is more than a bar; no bar of it is outside of groups; and no token runs on over the seam. -/
theorem taken_as_whole_iff {p q : Pattern} (bare : Bare p) (bare' : Bare q) :
    ∃ repeated ahead joined anchored,
      (Builder.of (.pattern p)).apply .oneOrMore = .ok repeated ∧
      (Builder.of (.pattern p)).apply (.followedBy (.pattern q)) = .ok ahead ∧
      (Builder.of (.pattern p)).apply (.append (.pattern q)) = .ok joined ∧
      (Builder.of (.pattern p)).apply (.assertStart true) = .ok anchored ∧
      (StandsFor repeated (grouped p.source ++ ['+']) ↔ p.source ≠ ['|']) ∧
      (StandsFor ahead (grouped p.source ++ (['(', '?', '='] ++ q.source ++ [')'])) ↔ bars .engine (body p) = 0) ∧
      (ReadsFor joined (grouped p.source ++ grouped q.source) ↔ Separate .engine (body p) (body q)) ∧
      (ReadsFor anchored (['^'] ++ grouped p.source) ↔
        Joins .engine ['^'] (body p) ∧ bars .engine (body p) = 0) := by
  obtain ⟨inside, _, left⟩ := stands_grouped p
  obtain ⟨inside', _, right⟩ := stands_grouped q
  have node : Builder.valueNode (.pattern q) = .exact (body q) := by rw [Builder.valueNode, of_pattern bare']
  rw [of_pattern bare]
  refine ⟨_, _, _, _, rfl, rfl, rfl, rfl, ?_, ?_, ?_, ?_⟩
  · refine stands_repeated_iff ?_ rfl
    simp [Builder.source, Builder.mapNode, Builder.isAnchored, Node.oneOrMore, Node.isEmpty, Node.render, Node.isItem,
      Repetition.text, repeatedText]
  · refine (standsFor_look_iff left (stands_ahead q) ?_).trans (separate_ahead_iff p q)
    simp [Builder.source, Builder.mapNode, Builder.isAnchored, Node.followedBy, Node.isEmpty, Node.render,
      Node.isChoice, node]
  · refine readsFor_iff left right ?_
    simp [Builder.source, Builder.extend, Builder.mapNode, Builder.isAnchored, Node.append, Node.isEmpty, Node.render,
      Node.isChoice, node]
  · refine (readsFor_iff .start left ?_).trans (separate_start_iff p)
    simp [Builder.source, Builder.isAnchored, Node.isEmpty, Node.render, Node.isChoice]

/-- Patterns of letters are taken as a whole by all four steps. -/
theorem letters_taken_as_whole :
    ∃ p q : Pattern, p.source = ['a', 'b'] ∧ q.source = ['c'] ∧ Bare p ∧ Bare q ∧
      ∃ repeated ahead joined anchored,
        (Builder.of (.pattern p)).apply .oneOrMore = .ok repeated ∧
        (Builder.of (.pattern p)).apply (.followedBy (.pattern q)) = .ok ahead ∧
        (Builder.of (.pattern p)).apply (.append (.pattern q)) = .ok joined ∧
        (Builder.of (.pattern p)).apply (.assertStart true) = .ok anchored ∧
        StandsFor repeated (grouped p.source ++ ['+']) ∧
        StandsFor ahead (grouped p.source ++ (['(', '?', '='] ++ q.source ++ [')'])) ∧
        ReadsFor joined (grouped p.source ++ grouped q.source) ∧ ReadsFor anchored (['^'] ++ grouped p.source) := by
  let p : Pattern := ⟨['a', 'b'], .standard, chain [.char (.single 'a'), .char (.single 'b')], by decide, by decide,
    by decide, by decide⟩
  let q : Pattern := ⟨['c'], .standard, .char (.single 'c'), by decide, by decide, by decide, by decide⟩
  have bare : Bare p := by decide
  have bare' : Bare q := by decide
  obtain ⟨repeated, ahead, joined, anchored, first, second, third, fourth, plus, look, side, start⟩ :=
    taken_as_whole_iff bare bare'
  exact ⟨p, q, rfl, rfl, bare, bare', repeated, ahead, joined, anchored, first, second, third, fourth,
    plus.mpr (by decide), look.mpr (by decide), side.mpr ⟨rfl, .inl ⟨rfl, rfl⟩⟩, start.mpr ⟨rfl, rfl⟩⟩

/-- The branches of a pattern are not kept together: what follows it goes to the last branch only. -/
theorem branches_not_kept_together :
    ∃ p q one other : Pattern, p.source = ['a', '|', 'b'] ∧ q.source = ['c'] ∧ p.flags = q.flags ∧ Bare p ∧ Bare q ∧
      ((Builder.of (.pattern p)).apply (.append (.pattern q))).bind Builder.compile = .ok one ∧
      Pattern.compile (grouped p.source ++ grouped q.source) p.flags.letters = .ok other ∧
      one.isMatch ['a'] = true ∧ other.isMatch ['a'] = false := by
  let a : Regex := .char (.single 'a')
  let b : Regex := .char (.single 'b')
  let c : Regex := .char (.single 'c')
  let p : Pattern := ⟨['a', '|', 'b'], .standard, .alt a b, by decide, by decide, by decide, by decide⟩
  let q : Pattern := ⟨['c'], .standard, c, by decide, by decide, by decide, by decide⟩
  let one : Pattern :=
    ⟨['a', '|', 'b', 'c'], .standard, .alt a (chain [b, c]), by decide, by decide, by decide, by decide⟩
  let other : Pattern := ⟨grouped p.source ++ grouped q.source, .standard, chain [.alt a b, c], by decide, by decide,
    by decide, by decide⟩
  have compiles : Pattern.compile ['a', '|', 'b', 'c'] FlagSet.standard.letters = .ok one :=
    compile_eq_ok_iff.mpr ⟨by decide, by decide⟩
  have compiled : Pattern.compile (grouped p.source ++ grouped q.source) FlagSet.standard.letters = .ok other :=
    compile_eq_ok_iff.mpr ⟨by decide, by decide⟩
  exact ⟨p, q, one, other, rfl, rfl, rfl, by decide, by decide, compiles, compiled, by decide, by decide⟩

end FluentPattern.Proofs.PatternUnits
