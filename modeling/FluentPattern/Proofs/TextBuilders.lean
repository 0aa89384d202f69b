import FluentPattern.Proofs.FlatRanges
import FluentPattern.Proofs.NodeFaults

/-! Builders that are made of texts alone. Whatever steps are taken, the tree of such a builder has no raw text, and its
anchors are those that the steps write. So the engine refuses what it is compiled to exactly if the tree is not sound,
limits of size apart. The steps do not see to that: a class may be made without members or with a range that goes down,
and a piece without text may be repeated. -/

namespace FluentPattern.Builder

def Step.value? : Step → Option Value
  | .append value | .maybe value | .orElse value | .followedBy value | .notFollowedBy value => some value
  | _ => none

/-- Whether the arguments of a step are those that callers are to pass: the ends of ranges are single characters, the
bounds have 64 bits, with a sign where they may be negative, and groups have names that groups can have. -/
def Step.WellFormed : Step → Prop
  | .ranges pairs _ => ∀ pair ∈ pairs, ∃ first last : Char, pair = ([first], [last])
  | .flatRanges items _ => ∀ item ∈ items, ∃ c : Char, item = [c]
  | .repeatBetween low high => (∀ bound ∈ low, bound < 2 ^ 63) ∧ ∀ bound ∈ high, bound < 2 ^ 63
  | .repeatExactly count => count < 2 ^ 64
  | .capture name => ∀ text ∈ name, Proofs.Tokens.ValidName text
  | _ => True

end FluentPattern.Builder

namespace FluentPattern.Proofs.TextBuilders
open Builder Regex Tokens NodeReading SourceReading NodeSoundness NodeFaults

/-- The builders that are made from texts in any number of steps, and with values that are texts or made so as well. -/
inductive Made : Builder → Prop where
  | empty : Made .empty
  | text (text) : Made (.of (.text text))
  | step {builder next} (step : Step) (before : Made builder) (wellFormed : step.WellFormed)
      (textual : ∀ value, step.value? = some value → (∃ text, value = .text text) ∨ ∃ inner, value = .builder inner)
      (values : ∀ inner, step.value? = some (.builder inner) → Made inner) (taken : builder.apply step = .ok next) :
      Made next

structure Clean (builder : Builder) : Prop where
  textual : Textual builder.node
  anchors : Anchors builder

variable {builder next : Builder} {step : Step}

namespace Clean

theorem mapNode (clean : Clean builder) {change : Node → Node} (textual : Textual (change builder.node)) :
    Clean (builder.mapNode change) := ⟨textual, clean.anchors⟩

theorem extend (clean : Clean builder) {change : Node → Node} (textual : Textual (change builder.node)) :
    Clean (builder.extend change) := ⟨textual, clean.anchors.1, by simp [Builder.extend]⟩

private theorem single_of_rangePairs {items : List Text} {pairs : List (Text × Text)}
    (single : ∀ item ∈ items, ∃ c : Char, item = [c]) (paired : Node.rangePairs items = .ok pairs) :
    ∀ pair ∈ pairs, ∃ first last : Char, pair = ([first], [last]) := by
  rintro ⟨first, last⟩ member
  obtain rfl := Node.rangePairs_eq_ok_iff.mp paired
  obtain ⟨firstItem, lastItem⟩ := Node.mem_rangeEnds member
  obtain ⟨low, rfl⟩ := single first firstItem
  obtain ⟨high, rfl⟩ := single last lastItem
  exact ⟨low, high, rfl⟩

theorem apply (clean : Clean builder) (wellFormed : step.WellFormed)
    (values : ∀ value, step.value? = some value → Textual (Builder.valueNode value)) :
    match builder.apply step with
    | .ok next => Clean next
    | .error _ => True := by
  cases step with
  | assertStart enable => exact ⟨clean.textual, by cases enable <;> simp, clean.anchors.2⟩
  | assertEnd enable => exact ⟨clean.textual, clean.anchors.1, by cases enable <;> simp⟩
  | append value => exact clean.extend (clean.textual.append (values value rfl))
  | maybe value => exact clean.extend (clean.textual.append (values value rfl).optional)
  | orElse value => exact clean.mapNode (clean.textual.orElse (values value rfl))
  | anything isLazy => exact clean.mapNode (clean.textual.sequence (Textual.anyCharacter.zeroOrMore isLazy))
  | anythingBut chars isLazy =>
    exact clean.mapNode (clean.textual.sequence ((Textual.classOf chars true).zeroOrMore isLazy))
  | something => exact clean.mapNode (clean.textual.sequence Textual.anyCharacter.oneOrMore)
  | somethingBut chars => exact clean.mapNode (clean.textual.sequence (Textual.classOf chars true).oneOrMore)
  | anyOf chars => exact clean.mapNode (clean.textual.sequence (Textual.classOf chars false).optional)
  | someOf chars => exact clean.mapNode (clean.textual.sequence (Textual.classOf chars false).oneOrMore)
  | oneOf chars => exact clean.mapNode (clean.textual.sequence (.classOf chars false))
  | followedBy value => exact clean.mapNode (clean.textual.lookahead (values value rfl) true)
  | notFollowedBy value => exact clean.mapNode (clean.textual.lookahead (values value rfl) false)
  | ranges pairs negated => exact clean.mapNode (clean.textual.ranges wellFormed negated)
  | flatRanges items negated =>
    simp only [Builder.apply]
    cases paired : Node.rangePairs items with
    | ok pairs => exact clean.mapNode (clean.textual.ranges (single_of_rangePairs wellFormed paired) negated)
    | error => trivial
  | lineBreak => exact clean.extend (clean.textual.append .lineBreak)
  | tab | digit | whitespace => exact clean.extend (clean.textual.append (.sign (by simp [plainSigns])))
  | word => exact clean.extend (clean.textual.append (.oneOrMore (.sign (by simp [plainSigns]))))
  | addFlags | removeFlags | toggleFlag | ignoreCase | stopAtFirst | findAll | singleLine =>
    exact ⟨clean.textual, clean.anchors⟩
  | repeatBetween low high => exact clean.mapNode (clean.textual.repeatedBetween wellFormed.1 wellFormed.2)
  | repeatExactly count => exact clean.mapNode (clean.textual.repeatedExactly wellFormed)
  | oneOrMore => exact clean.mapNode clean.textual.oneOrMore
  | zeroOrMore isLazy => exact clean.mapNode (clean.textual.zeroOrMore isLazy)
  | capture name => exact clean.mapNode (clean.textual.capture wellFormed)

theorem run (clean : Clean builder) {steps : List Step} (wellFormed : ∀ step ∈ steps, step.WellFormed)
    (values : ∀ step ∈ steps, ∀ value, step.value? = some value → Textual (Builder.valueNode value)) {final : Builder}
    (ran : builder.run steps = .ok final) : Clean final := by
  induction steps generalizing builder with
  | nil =>
    cases ran
    exact clean
  | cons step steps ih =>
    have after := clean.apply (wellFormed step List.mem_cons_self) (values step List.mem_cons_self)
    rw [Builder.run] at ran
    cases taken : builder.apply step with
    | error error =>
      rw [taken] at ran
      cases ran
    | ok next =>
      rw [taken] at after ran
      apply ih after _ _ ran
      · intro other member
        exact wellFormed other (List.mem_cons_of_mem step member)
      · intro other member
        exact values other (List.mem_cons_of_mem step member)

end Clean

theorem Made.clean (made : Made builder) : Clean builder := by
  induction made with
  | empty => exact ⟨.empty, by simp [Builder.empty, Builder.ofOptions], by simp [Builder.empty, Builder.ofOptions]⟩
  | text text => exact ⟨.literal text, by simp [Builder.of, Builder.ofOptions], by simp [Builder.of, Builder.ofOptions]⟩
  | step step _ wellFormed textual _ taken ih ihValues =>
    have clean := ih.apply wellFormed fun value takes => by
      rcases textual value takes with ⟨text, rfl⟩ | ⟨inner, rfl⟩
      · exact .literal text
      · exact (ihValues inner takes).textual
    rwa [taken] at clean

private theorem neat_back {back : Text} (known : back ∈ [[], ['$']]) : Neat back := by
  simp only [List.mem_cons, List.not_mem_nil, or_false] at known
  rcases known with rfl | rfl
  · exact .nil
  · exact ⟨settled_cons (by simp), .signs rfl⟩

private theorem breaks_source (clean : Clean builder) (unsound : builder.node.isSound = false) :
    Breaks builder.source := by
  have broken := (breaks clean.textual unsound).1
  have neat := neat clean.textual
  have nonempty : builder.node.isEmpty = false := by
    cases node : builder.node <;> simp_all [Node.isSound, Node.isEmpty]
  obtain ⟨pieces, cuts, gives⟩ := gives_front .engine clean.anchors.1
  have back := neat_back clean.anchors.2
  rw [Builder.source, nonempty, Bool.false_and, if_neg (by decide), List.append_assoc]
  split
  next =>
    exact .after cuts gives ((broken.group opens_plain neat.settled).breaks.append back) (neat.grouped.append back)
  next => exact .after cuts gives (broken.append back) (neat.append back)

theorem read_of_unsound (clean : Clean builder) (unsound : builder.node.isSound = false) :
    ∃ fault : Fault, fault.ofGrammar ∧ Regex.read .engine builder.source = .error fault := by
  obtain ⟨fault, grammar, fails⟩ := breaks_source clean unsound .nothing [] settled_nil rfl {}
  rw [List.append_nil] at fails
  exact ⟨fault, grammar, by rw [Regex.read, fails]⟩

/-- What compiles is sound. -/
theorem sound_of_compile (clean : Clean builder) {pattern : Pattern} (compiles : builder.compile = .ok pattern) :
    builder.node.isSound := by
  cases sound : builder.node.isSound with
  | true => rfl
  | false =>
    obtain ⟨fault, -, refused⟩ := read_of_unsound clean sound
    have reads := Pattern.read_of_compile compiles
    rw [refused] at reads
    cases reads

private theorem limit_of_sound (clean : Clean builder) (sound : builder.node.isSound) {fault : Fault}
    (failed : Regex.read .engine builder.source = .error fault ∨
      ∃ regex, Regex.read .engine builder.source = .ok regex ∧
      Regex.limitFault? builder.flags.mode builder.source regex = some fault) : fault.ofGrammar = false := by
  obtain ⟨meaning, fits⟩ := exists_fits clean.textual sound
  have reads := read_source_of_reads clean.anchors fits.reads
  rcases failed with failed | ⟨regex, reads', limit⟩
  · rw [reads] at failed
    cases failed
  · rw [reads] at reads'
    cases reads'
    exact ofGrammar_limitFault? (fits.straight_anchored _ _) limit

private theorem ofGrammar_iff {fault : Fault} : fault.ofGrammar ↔ fault ∉ [.tooDeep, .tooLarge] := by
  cases fault <;> decide

/-- A builder that is made from texts fails to compile exactly if its tree is not sound, apart from limits of size: if a
class in it has no members or a range that goes down, or if nothing is repeated, or a condition on the text ahead. -/
theorem made_refused_iff (made : Made builder) (known : builder.flags.error? = none) :
    ((∃ fault, fault ∉ [.tooDeep, .tooLarge] ∧ builder.compile = .error (.malformed fault)) ↔
      builder.node.isSound = false) ∧
    ∀ error, builder.compile = .error error → ∃ fault, error = .malformed fault := by
  have clean := made.clean
  have fails {error : Error} : builder.compile = .error error ↔ _ := Pattern.compile_eq_error_iff known
  refine ⟨⟨?_, fun unsound => ?_⟩, fun error failed => ?_⟩
  · rintro ⟨fault, grammar, failed⟩
    obtain ⟨-, _, same, reason⟩ := fails.mp failed
    cases same
    refine Bool.eq_false_iff.mpr fun sound => ?_
    have limit := limit_of_sound clean sound reason
    rw [ofGrammar_iff.mpr grammar] at limit
    cases limit
  · obtain ⟨fault, grammar, refused⟩ := read_of_unsound clean unsound
    refine ⟨fault, ofGrammar_iff.mp grammar, fails.mpr ⟨?_, fault, rfl, .inl refused⟩⟩
    intro none
    rw [none] at refused
    cases refused
  · obtain ⟨-, fault, same, -⟩ := fails.mp failed
    exact ⟨fault, same⟩

/-- One or more of the letters from `a` to `c`, or a plus, at the end of a line: `(?:[a-c]|\+)+$`. -/
theorem made_refused_iff_of_choice :
    let builder : Builder :=
      ⟨[], (Node.orElse (.ranges .empty [(['a'], ['c'])] false) (.literal ['+'])).oneOrMore, ['$'], .standard⟩
    Made builder ∧ builder.flags.error? = none ∧
      ((∃ fault, fault ∉ [.tooDeep, .tooLarge] ∧ builder.compile = .error (.malformed fault)) ↔
        builder.node.isSound = false) ∧
      ∀ error, builder.compile = .error error → ∃ fault, error = .malformed fault := by
  intro builder
  have letters : Made ⟨[], .ranges .empty [(['a'], ['c'])] false, [], .standard⟩ :=
    .step (.ranges [(['a'], ['c'])] false) .empty (by simp [Step.WellFormed]) nofun nofun rfl
  have either : Made ⟨[], (Node.ranges .empty [(['a'], ['c'])] false).orElse (.literal ['+']), [], .standard⟩ :=
    .step (.orElse (.text ['+'])) letters trivial (by simp [Step.value?]) nofun rfl
  have made : Made builder :=
    .step (.assertEnd true) (.step .oneOrMore either trivial nofun nofun rfl) trivial nofun nofun rfl
  exact ⟨made, by decide, made_refused_iff made (by decide)⟩

/-- The builder of a class without members is made from texts and does not compile: `[]`. -/
theorem empty_class_refused :
    ∃ builder, Made builder ∧ builder.flags.error? = none ∧ builder.compile = .error (.malformed .unclosedClass) :=
  ⟨⟨[], .thenOneOf .empty [], [], .standard⟩, .step (.oneOf []) .empty trivial nofun nofun rfl, by decide, rfl⟩

end FluentPattern.Proofs.TextBuilders
