import FluentPattern.Proofs.ClassTokens
import FluentPattern.Proofs.Regrouping
import FluentPattern.Regex.Reader

/-! What trees mean, and that their texts are read as that. The meaning of a tree is told without any text: a sequence
is a sequence, a choice an alternation, a repetition repeats its body and nothing else. Reading goes token by token,
and after the tokens of a tree the open group holds the branches of its meaning behind what it held before. -/

namespace FluentPattern.Proofs.NodeReading
open Regex Tokens ClassTokens

def literalRegex (text : Text) : Regex := chain (text.map fun c => .char (.single c))

/-- What a tree means that the combinators have made from texts that stand for themselves. -/
inductive Denotes : Node → Regex → Prop where
  | empty : Denotes .empty .empty
  | literal (text : Text) : Denotes (.literal text) (literalRegex text.collapseBackslashes)
  | anyCharacter : Denotes .anyCharacter (.char .anyCharacter)
  | tab : Denotes .tab (.char (.single '\t'))
  | digit : Denotes .digit (.char (.shorthand .digit))
  | whitespace : Denotes .whitespace (.char (.shorthand .space))
  | wordCharacter : Denotes (.exact ['\\', 'w']) (.char (.shorthand .word))
  | carriageReturn : Denotes (.exact ['\\', 'r']) (.char (.single '\r'))
  | lineFeed : Denotes (.exact ['\\', 'n']) (.char (.single '\n'))
  | classOf (chars : Text) (negated : Bool) (nonempty : chars ≠ []) :
      Denotes (.classOf chars negated)
        (.char (.brackets negated (unionAll (chars.collapseBackslashes.map .single))))
  | ranges (pairs : List (Char × Char)) (negated : Bool) (nonempty : pairs ≠ [])
      (ordered : ∀ pair ∈ pairs, pair.1 ≤ pair.2) :
      Denotes (.ranges .empty (pairs.map fun pair => ([pair.1], [pair.2])) negated)
        (.char (.brackets negated (unionAll (pairs.map fun pair => .range pair.1 pair.2))))
  | sequence {first second one other} (left : Denotes first one) (right : Denotes second other) :
      Denotes (.sequence first second) (.seq one other)
  | choice {first second one other} (left : Denotes first one) (right : Denotes second other) :
      Denotes (.choice first second) (.alt one other)
  | repeated {body meaning} (times : Repetition) (inside : Denotes body meaning) :
      Denotes (.repeated body times) (.loop meaning times.bounds times.greed)
  | lookahead {subject ahead one other} (positive : Bool) (left : Denotes subject one) (right : Denotes ahead other) :
      Denotes (.lookahead subject ahead positive) (.seq one (.look positive other))
  | capture {body meaning} (name : Option Text) (valid : ∀ text ∈ name, ValidName text)
      (inside : Denotes body meaning) : Denotes (.capture body name) (.capture name meaning)

def Readable (dialect : Dialect) : Node → Prop
  | .empty | .exact _ | .oneOf .. => True
  | .sequence first second | .choice first second | .lookahead first second _ =>
    Readable dialect first ∧ Readable dialect second
  | .capture body _ => Readable dialect body
  | .repeated body times =>
    Readable dialect body ∧ Allowed dialect times ∧ meant dialect times = times.bounds ∧
      (dialect.repeatsAll ∨ ∀ meaning, Denotes body meaning → meaning.flatten.isRepeatable)

theorem readable_grammar (node : Node) : Readable .grammar node := by
  induction node with
  | empty | exact | oneOf => trivial
  | sequence _ _ ihFirst ihSecond | choice _ _ ihFirst ihSecond | lookahead _ _ _ ihFirst ihSecond =>
    exact ⟨ihFirst, ihSecond⟩
  | capture _ _ ih => exact ih
  | repeated _ times ih => exact ⟨ih, allowed_grammar times, meant_grammar times, .inl rfl⟩

/-- The branches that are open after some more branches have been read, the first of which goes on with the current
one. -/
def feed (inside : Branches) : List (List Regex) → Branches
  | [] => inside
  | [pieces] => { inside with pieces := pieces.reverse ++ inside.pieces }
  | pieces :: more => feed ({ inside with pieces := pieces.reverse ++ inside.pieces } : Branches).next more

/-- Whether no piece is the empty regex, which reading would drop. -/
def Solid (branches : List (List Regex)) : Prop := ∀ pieces ∈ branches, ∀ piece ∈ pieces, piece.isEmpty = false

theorem isEmpty_ofLayout {branches : List (List Regex)} (some : branches ≠ []) (several : branches.length ≠ 1) :
    (ofLayout branches).isEmpty = false := by
  match branches with
  | [] => exact absurd rfl some
  | [_] => exact absurd rfl several
  | _ :: _ :: _ => rfl

theorem solid_inSequence {branches : List (List Regex)} (nonempty : branches ≠ []) (solid : Solid branches) :
    ∀ piece ∈ inSequence branches, piece.isEmpty = false := by
  intro piece member
  by_cases several : branches.length = 1
  · obtain ⟨pieces, rfl⟩ := List.length_eq_one_iff.mp several
    exact solid pieces List.mem_cons_self piece member
  · rw [inSequence_of_ne several] at member
    rw [List.mem_singleton.mp member]
    exact isEmpty_ofLayout nonempty several

theorem solid_layout (regex : Regex) : Solid regex.layout := by
  induction regex with
  | seq first second ihFirst ihSecond =>
    intro pieces branch piece member
    rw [List.mem_singleton.mp branch] at member
    rcases List.mem_append.mp member with member | member
    · exact solid_inSequence first.layout_ne_nil ihFirst piece member
    · exact solid_inSequence second.layout_ne_nil ihSecond piece member
  | alt first second ihFirst ihSecond =>
    intro pieces branch
    rcases List.mem_append.mp branch with branch | branch
    · exact ihFirst pieces branch
    · exact ihSecond pieces branch
  | _ => simp [Solid, layout, Regex.isEmpty]

private theorem feed_append {one other : List (List Regex)} (first : one ≠ []) (second : other ≠ [])
    (inside : Branches) : feed (feed inside one).next other = feed inside (one ++ other) := by
  induction one generalizing inside with
  | nil => exact absurd rfl first
  | cons pieces more ih =>
    cases more with
    | nil =>
      obtain ⟨next, rest, rfl⟩ := List.exists_cons_of_ne_nil second
      rfl
    | cons next more => exact ih (by simp) _

private theorem whole_feed_cons (inside : Branches) (pieces : List Regex) {more : List (List Regex)}
    (solid : Solid more) :
    (feed inside (pieces :: more)).whole =
      altAll (inside.done.reverse ++
        seqAll ((inside.pieces.reverse ++ pieces).filter (!·.isEmpty)) :: more.map seqAll) := by
  induction more generalizing inside pieces with
  | nil => simp [feed, Branches.whole, Branches.current]
  | cons next more ih =>
    have kept : next.filter (!·.isEmpty) = next :=
      List.filter_eq_self.mpr fun piece member => by simp [solid next List.mem_cons_self piece member]
    have step : feed inside (pieces :: next :: more) =
        feed ({ inside with pieces := pieces.reverse ++ inside.pieces } : Branches).next (next :: more) := rfl
    rw [step, ih _ _ fun branch member => solid branch (List.mem_cons_of_mem _ member)]
    simp [Branches.next, Branches.current, kept]

theorem whole_feed {branches : List (List Regex)} (nonempty : branches ≠ []) (solid : Solid branches) :
    (feed {} branches).whole = ofLayout branches := by
  obtain ⟨pieces, more, rfl⟩ := List.exists_cons_of_ne_nil nonempty
  have kept : pieces.filter (!·.isEmpty) = pieces :=
    List.filter_eq_self.mpr fun piece member => by simp [solid pieces List.mem_cons_self piece member]
  rw [whole_feed_cons {} pieces fun branch member => solid branch (List.mem_cons_of_mem _ member)]
  simp [ofLayout, kept]

variable {dialect : Dialect}

/-- After some tokens, the open group holds some more branches. -/
def Gives (dialect : Dialect) (pieces : List Token) (branches : List (List Regex)) : Prop :=
  ∀ (reading : Reading) (rest : List Token), reading.run dialect (pieces ++ rest) =
    Reading.run dialect { reading with inside := feed reading.inside branches } rest

theorem Gives.items (regexes : List Regex) : Gives dialect (regexes.map .item) [regexes] := by
  intro reading rest
  induction regexes generalizing reading with
  | nil => rfl
  | cons regex regexes ih =>
    simp only [List.map_cons, List.cons_append, Reading.run, Reading.step]
    rw [ih]
    simp [feed, Branches.push]

theorem Gives.append {one other : List Token} {first second : List Regex} (left : Gives dialect one [first])
    (right : Gives dialect other [second]) : Gives dialect (one ++ other) [first ++ second] := by
  intro reading rest
  rw [List.append_assoc, left, right]
  simp [feed]

theorem Gives.bar {one other : List Token} {first second : List (List Regex)} (left : Gives dialect one first)
    (right : Gives dialect other second) (nonempty : first ≠ []) (nonempty' : second ≠ []) :
    Gives dialect (one ++ [.bar] ++ other) (first ++ second) := by
  intro reading rest
  rw [List.append_assoc, List.append_assoc, left]
  simp only [List.cons_append, List.nil_append, Reading.run, Reading.step]
  rw [right, feed_append nonempty nonempty']

theorem Gives.group {pieces : List Token} {regex : Regex} (gives : Gives dialect pieces regex.layout)
    (kind : Opening) :
    Gives dialect ([.opening kind] ++ pieces ++ [.closing]) [[kind.close regex.flatten]] := by
  intro reading rest
  simp only [List.append_assoc, List.cons_append, List.nil_append, Reading.run, Reading.step]
  rw [gives]
  simp only [Reading.run, Reading.step]
  rw [whole_feed regex.layout_ne_nil (solid_layout regex)]
  rfl

theorem Gives.times {pieces : List Token} {regex : Regex} (gives : Gives dialect pieces [[regex]])
    (repeatable : dialect.repeatsAll || regex.isRepeatable) (bounds : Bounds) (greed : Greed) :
    Gives dialect (pieces ++ [.times bounds greed]) [[.loop regex bounds greed]] := by
  intro reading rest
  rw [List.append_assoc, gives]
  simp [Reading.run, Reading.step, feed, Reading.changeLast, repeatable]

/-- The text of a tree is read as what the tree means. Where it is a single item, it is so for repetitions too. -/
structure Reads (dialect : Dialect) (node : Node) (meaning : Regex) : Prop where
  branches : meaning.layout.length = 1 ↔ node.isChoice = false
  text : ∃ pieces, Cuts dialect node.render pieces ∧ Gives dialect pieces meaning.layout
  item : node.isItem → ∃ pieces regex,
    CutsItem dialect node.render pieces ∧ Gives dialect pieces [[regex]] ∧ meaning.layout = [[regex]]

namespace Reads

variable {node : Node} {meaning : Regex}

private theorem ofItem {regex : Regex} {pieces : List Token} (choice : node.isChoice = false)
    (layout : meaning.layout = [[regex]]) (cuts : CutsItem dialect node.render pieces)
    (gives : Gives dialect pieces [[regex]]) : Reads dialect node meaning where
  branches := by simp [layout, choice]
  text := ⟨pieces, cuts.cuts, layout ▸ gives⟩
  item _ := ⟨pieces, regex, cuts, gives, layout⟩

theorem side (reads : Reads dialect node meaning) :
    ∃ pieces, Cuts dialect (if node.isChoice then grouped node.render else node.render) pieces ∧
      Gives dialect pieces [inSequence meaning.layout] := by
  obtain ⟨pieces, cuts, gives⟩ := reads.text
  cases choice : node.isChoice with
  | false =>
    obtain ⟨only, single⟩ := List.length_eq_one_iff.mp (reads.branches.mpr choice)
    rw [single] at gives
    exact ⟨pieces, cuts, by simpa [single, inSequence] using gives⟩
  | true =>
    have several : meaning.layout.length ≠ 1 := fun one => by simp [reads.branches.mp one] at choice
    refine ⟨_, (cutsItem_grouped cuts).cuts, ?_⟩
    rw [inSequence_of_ne several]
    exact gives.group .plain

theorem body (reads : Reads dialect node meaning) :
    ∃ pieces, CutsItem dialect (if node.isItem then node.render else grouped node.render) pieces ∧
      Gives dialect pieces [[meaning.flatten]] := by
  cases item : node.isItem with
  | false =>
    obtain ⟨pieces, cuts, gives⟩ := reads.text
    exact ⟨_, cutsItem_grouped cuts, gives.group .plain⟩
  | true =>
    obtain ⟨pieces, regex, cuts, gives, layout⟩ := reads.item item
    have same : meaning.flatten = regex := by simp [flatten, layout, ofLayout, altAll, seqAll]
    exact ⟨pieces, cuts, same ▸ gives⟩

theorem empty : Reads dialect .empty .empty :=
  ⟨by simp [layout, Node.isChoice], ⟨[], .nil, .items []⟩, by simp [Node.isItem]⟩

theorem leaf {text : Text} {set : CharSet} (cuts : CutsItem dialect text [.item (.char set)]) :
    Reads dialect (.exact text) (.char set) :=
  ofItem rfl rfl cuts (.items [_])

theorem sequence {first second : Node} {one other : Regex} (left : Reads dialect first one)
    (right : Reads dialect second other) : Reads dialect (.sequence first second) (.seq one other) := by
  obtain ⟨pieces, cuts, gives⟩ := left.side
  obtain ⟨more, cuts', gives'⟩ := right.side
  exact ⟨by simp [layout, Node.isChoice], ⟨_, cuts.append cuts', gives.append gives'⟩, by simp [Node.isItem]⟩

theorem choice {first second : Node} {one other : Regex} (left : Reads dialect first one)
    (right : Reads dialect second other) : Reads dialect (.choice first second) (.alt one other) := by
  obtain ⟨pieces, cuts, gives⟩ := left.text
  obtain ⟨more, cuts', gives'⟩ := right.text
  refine ⟨?_, ⟨_, cuts.bar cuts', gives.bar gives' one.layout_ne_nil other.layout_ne_nil⟩, by simp [Node.isItem]⟩
  have first := List.length_pos_iff.mpr one.layout_ne_nil
  have second := List.length_pos_iff.mpr other.layout_ne_nil
  simp only [layout, List.length_append, Node.isChoice, Bool.true_eq_false, iff_false]
  omega

theorem repeated {times : Repetition} (reads : Reads dialect node meaning) (allowed : Allowed dialect times)
    (repeatable : dialect.repeatsAll || meaning.flatten.isRepeatable) :
    Reads dialect (.repeated node times) (.loop meaning (meant dialect times) times.greed) := by
  obtain ⟨pieces, cuts, gives⟩ := reads.body
  exact ⟨by simp [layout, Node.isChoice], ⟨_, cuts.times allowed, gives.times repeatable _ _⟩, by simp [Node.isItem]⟩

theorem lookahead {subject ahead : Node} {one other : Regex} (left : Reads dialect subject one)
    (right : Reads dialect ahead other) (positive : Bool) :
    Reads dialect (.lookahead subject ahead positive) (.seq one (.look positive other)) := by
  obtain ⟨pieces, cuts, gives⟩ := left.side
  obtain ⟨more, cuts', gives'⟩ := right.text
  refine ⟨by simp [layout, Node.isChoice], ⟨pieces ++ ([.opening (.look positive)] ++ more ++ [.closing]), ?_, ?_⟩,
    by simp [Node.isItem]⟩
  · simpa [Node.render] using cuts.append ((opens_ahead positive).cutsItem cuts').cuts
  · exact gives.append (gives'.group (.look positive))

theorem capture (reads : Reads dialect node meaning) {name : Option Text} (valid : ∀ text ∈ name, ValidName text) :
    Reads dialect (.capture node name) (.capture name meaning) := by
  obtain ⟨pieces, cuts, gives⟩ := reads.text
  exact ofItem rfl rfl ((opens_capture valid).cutsItem cuts) (gives.group (.capture name))

end Reads

private theorem cutsItem_escapedChar (c : Char) :
    CutsItem dialect (if c ∈ Text.patternSpecials then ['\\', c] else [c]) [.item (.char (.single c))] := by
  split
  next special =>
    refine cutsItem_escaped ?_
    simp only [Text.patternSpecials, List.mem_cons, List.not_mem_nil, or_false] at special
    rcases special with rfl | rfl | rfl | rfl | rfl | rfl | rfl | rfl | rfl | rfl | rfl | rfl | rfl | rfl | rfl | rfl
    all_goals decide
  next plain =>
    refine cutsItem_plain fun sign => plain ?_
    simp only [signs, List.mem_cons, List.not_mem_nil, or_false] at sign
    rcases sign with rfl | rfl | rfl | rfl | rfl | rfl | rfl | rfl | rfl | rfl | rfl | rfl
    all_goals decide

private theorem cutsItem_escapedText (c : Char) (text : Text) :
    CutsItem dialect (Text.escapeEach Text.patternSpecials (c :: text))
      ((c :: text).map fun c => .item (.char (.single c))) := by
  induction text generalizing c with
  | nil => simpa [Text.escapeEach] using cutsItem_escapedChar c
  | cons next text ih => exact (cutsItem_escapedChar c).append (ih next)

theorem cuts_escaped (text : Text) :
    Cuts dialect (Text.escapeEach Text.patternSpecials text) (text.map fun c => .item (.char (.single c))) := by
  cases text with
  | nil => exact .nil
  | cons c text => exact (cutsItem_escapedText c text).cuts

theorem layout_literalRegex (text : Text) : (literalRegex text).layout = [text.map fun c => .char (.single c)] := by
  induction text with
  | nil => rfl
  | cons c text ih =>
    have step : literalRegex (c :: text) = .seq (.char (.single c)) (literalRegex text) := rfl
    rw [step, layout, ih]
    rfl

theorem Reads.literal (text : Text) : Reads dialect (.literal text) (literalRegex text.collapseBackslashes) := by
  have gives : Gives dialect _ _ := .items (text.collapseBackslashes.map fun c => .char (.single c))
  rw [List.map_map] at gives
  unfold Node.literal Text.escapeForPattern
  generalize text.collapseBackslashes = text at gives
  refine ⟨by simp [layout_literalRegex, Node.isChoice], ?_, fun item => ?_⟩
  · rw [layout_literalRegex]
    exact ⟨_, cuts_escaped text, gives⟩
  · match text with
    | [] => simp [Node.isItem] at item
    | [c] => exact ⟨_, _, cutsItem_escapedText c [], gives, layout_literalRegex [c]⟩
    | c :: next :: text =>
      have long (c : Char) : 0 < (if c ∈ Text.patternSpecials then ['\\', c] else [c]).length := by split <;> simp
      have first := long c
      have second := long next
      simp only [Node.isItem, Text.escapeEach, List.flatMap_cons, List.length_append, beq_iff_eq] at item
      omega

theorem cutsItem_members {members : List Member} (nonempty : members ≠ [])
    (ordered : ∀ member ∈ members, member.Ordered) {parts : List ClassPart} (negated : Bool)
    (text : parts.flatMap ClassPart.render = members.flatMap Member.text) :
    CutsItem dialect (Node.oneOf parts negated).render
      [.item (.char (.brackets negated (unionAll (members.map Member.set))))] := by
  rw [Node.render, text]
  exact cutsItem_class nonempty ordered negated

theorem Reads.members {members : List Member} (nonempty : members ≠ [])
    (ordered : ∀ member ∈ members, member.Ordered) {parts : List ClassPart} (negated : Bool)
    (text : parts.flatMap ClassPart.render = members.flatMap Member.text) :
    Reads dialect (.oneOf parts negated) (.char (.brackets negated (unionAll (members.map Member.set)))) :=
  .ofItem rfl rfl (cutsItem_members nonempty ordered negated text) (.items [_])

theorem collapse_ne_nil {text : Text} (nonempty : text ≠ []) : text.collapseBackslashes ≠ [] := by
  induction text with
  | nil => exact absurd rfl nonempty
  | cons c text ih =>
    unfold Text.collapseBackslashes
    split
    next run =>
      refine ih fun none => ?_
      simp [none] at run
    next => simp

theorem text_classOf (chars : Text) :
    [ClassPart.characters chars.escapeForClass].flatMap ClassPart.render =
      (chars.collapseBackslashes.map Member.single).flatMap Member.text := by
  simp [ClassPart.render, Text.escapeForClass, Text.escapeEach, List.flatMap_map, Member.text, classChar]

theorem cutsItem_classOf {chars : Text} (nonempty : chars ≠ []) (negated : Bool) :
    CutsItem dialect (Node.classOf chars negated).render
      [.item (.char (.brackets negated (unionAll (chars.collapseBackslashes.map .single))))] := by
  have cuts : CutsItem dialect (Node.classOf chars negated).render
      [.item (.char (.brackets negated (unionAll ((chars.collapseBackslashes.map Member.single).map Member.set))))] :=
    cutsItem_members (by simpa using collapse_ne_nil nonempty) (by simp [Member.Ordered]) negated (text_classOf chars)
  rwa [List.map_map] at cuts

theorem Reads.classOf {chars : Text} (nonempty : chars ≠ []) (negated : Bool) :
    Reads dialect (.classOf chars negated)
      (.char (.brackets negated (unionAll (chars.collapseBackslashes.map .single)))) :=
  .ofItem rfl rfl (cutsItem_classOf nonempty negated) (.items [_])

theorem escapeForClass_singleton (c : Char) : Text.escapeForClass [c] = classChar c := by
  simp [Text.escapeForClass, Text.collapseBackslashes, Text.escapeEach, classChar]

theorem text_ranges (pairs : List (Char × Char)) :
    (pairs.map fun pair => .range (Text.escapeForClass [pair.1]) (Text.escapeForClass [pair.2])).flatMap
        ClassPart.render =
      (pairs.map fun pair => .range pair.1 pair.2).flatMap Member.text := by
  simp [List.flatMap_map, ClassPart.render, Member.text, escapeForClass_singleton]

theorem cutsItem_ranges {pairs : List (Char × Char)} (nonempty : pairs ≠ [])
    (ordered : ∀ pair ∈ pairs, pair.1 ≤ pair.2) (negated : Bool) :
    CutsItem dialect (Node.ranges .empty (pairs.map fun pair => ([pair.1], [pair.2])) negated).render
      [.item (.char (.brackets negated (unionAll (pairs.map fun pair => .range pair.1 pair.2))))] := by
  have inOrder : ∀ member ∈ pairs.map fun pair => Member.range pair.1 pair.2, member.Ordered := by
    intro member inside
    obtain ⟨pair, present, rfl⟩ := List.mem_map.mp inside
    exact ordered pair present
  have cuts : CutsItem dialect
      (Node.oneOf (pairs.map fun pair => .range (Text.escapeForClass [pair.1]) (Text.escapeForClass [pair.2]))
        negated).render
      [.item (.char (.brackets negated (unionAll ((pairs.map fun pair => Member.range pair.1 pair.2).map Member.set))))] :=
    cutsItem_members (by simpa using nonempty) inOrder negated (text_ranges pairs)
  rw [List.map_map] at cuts
  simpa [Node.ranges, Node.append, Member.set, Function.comp_def] using cuts

theorem Reads.ranges {pairs : List (Char × Char)} (nonempty : pairs ≠ []) (ordered : ∀ pair ∈ pairs, pair.1 ≤ pair.2)
    (negated : Bool) :
    Reads dialect (.ranges .empty (pairs.map fun pair => ([pair.1], [pair.2])) negated)
      (.char (.brackets negated (unionAll (pairs.map fun pair => .range pair.1 pair.2)))) :=
  .ofItem rfl rfl (cutsItem_ranges nonempty ordered negated) (.items [_])

/-- The text of a tree is read as what the tree means, in each dialect that has the repetitions of the tree. -/
theorem reads_of_denotes {node : Node} {meaning : Regex} (denotes : Denotes node meaning)
    (readable : Readable dialect node) : Reads dialect node meaning := by
  induction denotes with
  | empty => exact .empty
  | literal text => exact .literal text
  | anyCharacter => exact .leaf cutsItem_dot
  | tab | digit | whitespace | wordCharacter | carriageReturn | lineFeed => exact .leaf (cutsItem_escaped rfl)
  | classOf chars negated nonempty => exact .classOf nonempty negated
  | ranges pairs negated nonempty ordered => exact .ranges nonempty ordered negated
  | sequence _ _ ihFirst ihSecond => exact .sequence (ihFirst readable.1) (ihSecond readable.2)
  | choice _ _ ihFirst ihSecond => exact .choice (ihFirst readable.1) (ihSecond readable.2)
  | repeated times inside ih =>
    obtain ⟨below, allowed, means, repeatable⟩ := readable
    rw [← means]
    refine (ih below).repeated allowed ?_
    rcases repeatable with all | one
    · simp [all]
    · simp [one _ inside]
  | lookahead positive _ _ ihFirst ihSecond => exact .lookahead (ihFirst readable.1) (ihSecond readable.2) positive
  | capture name valid _ ih => exact (ih readable).capture valid

end FluentPattern.Proofs.NodeReading
