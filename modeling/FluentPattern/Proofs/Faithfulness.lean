import FluentPattern.Proofs.SourceReading

/-! Whatever the combinators build, its text says. Of the trees that can be built from texts, classes and the signs of
the combinators, in any nesting, each has a meaning, and the text of a builder with such a tree is read as that meaning
between the anchors of the builder. Reading cannot see how sequences and alternations were nested, so the result is the
meaning up to regrouping. -/

namespace FluentPattern.Proofs.Faithfulness
open Regex Tokens NodeReading SourceReading

/-- The trees that the combinators build without raw text. -/
inductive Built : Node → Prop where
  | empty : Built .empty
  | literal (text) : Built (.literal text)
  | anyCharacter : Built .anyCharacter
  | tab : Built .tab
  | digit : Built .digit
  | whitespace : Built .whitespace
  | word : Built .word
  | lineBreak : Built .lineBreak
  | append {first second} (left : Built first) (right : Built second) : Built (first.append second)
  | orElse {first second} (left : Built first) (right : Built second) : Built (first.orElse second)
  | sequenceAll {nodes} (all : ∀ node ∈ nodes, Built node) : Built (.sequenceAll nodes)
  | choiceAll {nodes} (all : ∀ node ∈ nodes, Built node) : Built (.choiceAll nodes)
  | optional {body} (inside : Built body) : Built body.optional
  | maybe {first second} (left : Built first) (right : Built second) : Built (first.maybe second)
  | anything {node} (before : Built node) (isLazy) : Built (node.anything isLazy)
  | something {node} (before : Built node) : Built node.something
  | anythingBut {node chars} (before : Built node) (nonempty : chars ≠ []) (isLazy) :
      Built (node.anythingBut chars isLazy)
  | somethingBut {node chars} (before : Built node) (nonempty : chars ≠ []) : Built (node.somethingBut chars)
  | anyOf {node chars} (before : Built node) (nonempty : chars ≠ []) : Built (node.anyOf chars)
  | someOf {node chars} (before : Built node) (nonempty : chars ≠ []) : Built (node.someOf chars)
  | thenOneOf {node chars} (before : Built node) (nonempty : chars ≠ []) : Built (node.thenOneOf chars)
  | zeroOrMore {body} (inside : Built body) (isLazy) : Built (body.zeroOrMore isLazy)
  | oneOrMore {body} (inside : Built body) : Built body.oneOrMore
  | followedBy {subject ahead} (left : Built subject) (right : Built ahead) : Built (subject.followedBy ahead)
  | notFollowedBy {subject ahead} (left : Built subject) (right : Built ahead) : Built (subject.notFollowedBy ahead)
  | ranges {node} {pairs : List (Char × Char)} (before : Built node) (nonempty : pairs ≠ [])
      (ordered : ∀ pair ∈ pairs, pair.1 ≤ pair.2) (negated) :
      Built (node.ranges (pairs.map fun pair => ([pair.1], [pair.2])) negated)
  | repeatedBetween {body} (inside : Built body) (low high) : Built (body.repeatedBetween low high)
  | repeatedExactly {body} (inside : Built body) (count) : Built (body.repeatedExactly count)
  | capture {body name} (inside : Built body) (valid : ∀ text ∈ name, ValidName text) : Built (.capture body name)

private theorem holds_foldl {holds : Node → Prop} {join : Node → Node → Node}
    (joins : ∀ {first second}, holds first → holds second → holds (join first second))
    {first : Node} {rest : List Node} (left : holds first) (right : ∀ node ∈ rest, holds node) :
    holds (rest.foldl join first) := by
  induction rest generalizing first with
  | nil => exact left
  | cons node rest ih =>
    have joined := joins left (right node List.mem_cons_self)
    exact ih joined fun other member => right other (List.mem_cons_of_mem _ member)

theorem holds_joinAll {holds : Node → Prop} (empty : holds .empty) {join : Node → Node → Node}
    (joins : ∀ {first second}, holds first → holds second → holds (join first second))
    {nodes : List Node} (all : ∀ node ∈ nodes, holds node) : holds (.joinAll join nodes) := by
  have kept : ∀ node ∈ nodes.filter (!·.isEmpty), holds node := fun node member =>
    all node (List.mem_filter.mp member).1
  unfold Node.joinAll
  split
  · exact empty
  next first rest pieces =>
    rw [pieces] at kept
    exact holds_foldl joins (kept first List.mem_cons_self) fun node member => kept node (List.mem_cons_of_mem _ member)

def Meaningful (node : Node) : Prop := ∃ meaning, Denotes node meaning

private theorem Meaningful.sequence {first second : Node} (left : Meaningful first) (right : Meaningful second) :
    Meaningful (.sequence first second) := by
  obtain ⟨one, left⟩ := left
  obtain ⟨other, right⟩ := right
  exact ⟨_, .sequence left right⟩

private theorem Meaningful.choice {first second : Node} (left : Meaningful first) (right : Meaningful second) :
    Meaningful (.choice first second) := by
  obtain ⟨one, left⟩ := left
  obtain ⟨other, right⟩ := right
  exact ⟨_, .choice left right⟩

private theorem Meaningful.repeated {body : Node} (inside : Meaningful body) (times : Repetition) :
    Meaningful (.repeated body times) := by
  obtain ⟨meaning, inside⟩ := inside
  exact ⟨_, .repeated times inside⟩

private theorem Meaningful.lookahead {subject ahead : Node} (left : Meaningful subject) (right : Meaningful ahead)
    (positive : Bool) : Meaningful (.lookahead subject ahead positive) := by
  obtain ⟨one, left⟩ := left
  obtain ⟨other, right⟩ := right
  exact ⟨_, .lookahead positive left right⟩

private theorem Meaningful.append {first second : Node} (left : Meaningful first) (right : Meaningful second) :
    Meaningful (first.append second) := by
  unfold Node.append
  split
  · exact right
  · exact left
  · exact left.sequence right

private theorem Meaningful.orElse {first second : Node} (left : Meaningful first) (right : Meaningful second) :
    Meaningful (first.orElse second) := by
  unfold Node.orElse
  split
  · exact left
  · exact left.choice right

private theorem Meaningful.classOf {chars : Text} (nonempty : chars ≠ []) (negated : Bool) :
    Meaningful (.classOf chars negated) := ⟨_, .classOf chars negated nonempty⟩

theorem Built.meaningful {node : Node} (built : Built node) : Meaningful node := by
  have dot : Meaningful .anyCharacter := ⟨_, .anyCharacter⟩
  have carriageReturn : Meaningful (.exact ['\\', 'r']) := ⟨_, .carriageReturn⟩
  have lineFeed : Meaningful (.exact ['\\', 'n']) := ⟨_, .lineFeed⟩
  induction built with
  | empty => exact ⟨_, .empty⟩
  | literal text => exact ⟨_, .literal text⟩
  | anyCharacter => exact dot
  | tab => exact ⟨_, .tab⟩
  | digit => exact ⟨_, .digit⟩
  | whitespace => exact ⟨_, .whitespace⟩
  | word => exact .repeated ⟨_, .wordCharacter⟩ _
  | lineBreak => exact ((carriageReturn.sequence lineFeed).choice carriageReturn).choice lineFeed
  | append _ _ ihFirst ihSecond => exact ihFirst.append ihSecond
  | orElse _ _ ihFirst ihSecond => exact ihFirst.orElse ihSecond
  | sequenceAll _ ih => exact holds_joinAll ⟨_, .empty⟩ .sequence ih
  | choiceAll _ ih => exact holds_joinAll ⟨_, .empty⟩ .choice ih
  | optional _ ih => exact ih.repeated _
  | maybe _ _ ihFirst ihSecond => exact ihFirst.append (ihSecond.repeated _)
  | anything _ _ ih | something _ ih => exact ih.sequence (dot.repeated _)
  | anythingBut _ nonempty _ ih | somethingBut _ nonempty ih =>
    exact ih.sequence ((Meaningful.classOf nonempty true).repeated _)
  | anyOf _ nonempty ih | someOf _ nonempty ih =>
    exact ih.sequence ((Meaningful.classOf nonempty false).repeated _)
  | thenOneOf _ nonempty ih => exact ih.sequence (.classOf nonempty false)
  | zeroOrMore _ _ ih | oneOrMore _ ih | repeatedBetween _ _ _ ih | repeatedExactly _ _ ih => exact ih.repeated _
  | followedBy _ _ ihFirst ihSecond => exact ihFirst.lookahead ihSecond true
  | notFollowedBy _ _ ihFirst ihSecond => exact ihFirst.lookahead ihSecond false
  | ranges _ nonempty ordered negated ih => exact ih.append ⟨_, .ranges _ negated nonempty ordered⟩
  | capture _ valid ih =>
    obtain ⟨meaning, inside⟩ := ih
    exact ⟨_, .capture _ valid inside⟩

/-- Reading the text of a builder gives the anchors of the builder around the whole meaning of its tree. -/
theorem source_says_meaning {builder : Builder} (built : Built builder.node) (anchors : Anchors builder) :
    (∃ meaning, Denotes builder.node meaning) ∧
    ∀ meaning, Denotes builder.node meaning → ∃ regex, Regex.read .grammar builder.source = .ok regex ∧
      Regrouped regex (anchored builder.front builder.back meaning) :=
  ⟨built.meaningful, fun _ denotes =>
    ⟨_, read_source anchors denotes (readable_grammar _), regrouped_flatten _⟩⟩

/-- An alternation that is repeated before a condition, between both anchors: `^(?:a|\+)+(?=[\-\]])$`. -/
theorem source_says_alternation :
    let node := ((Node.literal ['a']).orElse (.literal ['+'])).oneOrMore.followedBy (Node.empty.thenOneOf ['-', ']'])
    let meaning := Regex.seq (.loop (.alt (literalRegex ['a']) (literalRegex ['+'])) ⟨1, none⟩ .greedy)
      (.look true (.seq .empty (.char (.brackets false (.union (.union .nothing (.single '-')) (.single ']'))))))
    ∃ regex, Regex.read .grammar (Builder.source ⟨['^'], node, ['$'], .standard⟩) = .ok regex ∧
      Regrouped regex (.seq .atStart (.seq meaning .atEnd)) := by
  intro node meaning
  have built : Built node :=
    .followedBy (.oneOrMore (.orElse (.literal ['a']) (.literal ['+']))) (.thenOneOf .empty (by decide))
  have denotes : Denotes node meaning :=
    .lookahead true (.repeated .oneOrMore (.choice (.literal ['a']) (.literal ['+'])))
      (.sequence .empty (.classOf ['-', ']'] false (by decide)))
  have anchors : Anchors ⟨['^'], node, ['$'], .standard⟩ := ⟨by decide, by decide⟩
  exact (source_says_meaning built anchors).2 meaning denotes

end FluentPattern.Proofs.Faithfulness
