import FluentPattern.Builder
import FluentPattern.Proofs.NodeReading

/-! The text of a builder is read as what the builder means: the anchor at the start, the whole of the tree, the anchor
at the end. In the bare grammar this holds for every tree that the combinators make from texts, in the language of the
engine for those whose repetitions the engine has. -/

namespace FluentPattern.Proofs.SourceReading
open Regex Tokens NodeReading

variable {dialect : Dialect}

def anchored (front back : Text) (meaning : Regex) : Regex :=
  .seq (if front = [] then .empty else .atStart) (.seq meaning (if back = [] then .empty else .atEnd))

/-- Whether a builder has the anchors that its steps write, or none. -/
def Anchors (builder : Builder) : Prop := builder.front ∈ [[], ['^']] ∧ builder.back ∈ [[], ['$']]

theorem seqAll_inSequence (branches : List (List Regex)) :
    seqAll (inSequence branches) = ofLayout branches := by
  unfold inSequence
  split <;> rfl

theorem read_of_gives {text : Text} {pieces : List Token} {branches : List (List Regex)}
    (cuts : Cuts dialect text pieces) (gives : Gives dialect pieces branches) (nonempty : branches ≠ [])
    (solid : Solid branches) : Regex.read dialect text = .ok (ofLayout branches) := by
  have runs := gives {} []
  rw [List.append_nil] at runs
  simp [Regex.read, cuts.tokens_eq, runs, Reading.run, Reading.finish, whole_feed nonempty solid]

theorem read_of_reads {node : Node} {meaning : Regex} (reads : Reads dialect node meaning) :
    Regex.read dialect node.render = .ok meaning.flatten := by
  obtain ⟨pieces, cuts, gives⟩ := reads.text
  exact read_of_gives cuts gives meaning.layout_ne_nil (solid_layout meaning)

private theorem layout_anchored (front back : Text) (meaning : Regex) :
    (anchored front back meaning).layout =
      [(if front = [] then [] else [.atStart]) ++ inSequence meaning.layout ++
        if back = [] then [] else [.atEnd]] := by
  unfold anchored
  split <;> split <;> simp [layout, inSequence]

theorem gives_front (dialect : Dialect) {front : Text} (known : front ∈ [[], ['^']]) :
    ∃ pieces, Cuts dialect front pieces ∧ Gives dialect pieces [if front = [] then [] else [.atStart]] := by
  simp only [List.mem_cons, List.not_mem_nil, or_false] at known
  rcases known with rfl | rfl
  · exact ⟨[], .nil, .items []⟩
  · exact ⟨_, cutsItem_start.cuts, .items [.atStart]⟩

private theorem gives_back (dialect : Dialect) {back : Text} (known : back ∈ [[], ['$']]) :
    ∃ pieces, Cuts dialect back pieces ∧ Gives dialect pieces [if back = [] then [] else [.atEnd]] := by
  simp only [List.mem_cons, List.not_mem_nil, or_false] at known
  rcases known with rfl | rfl
  · exact ⟨[], .nil, .items []⟩
  · exact ⟨_, cutsItem_end.cuts, .items [.atEnd]⟩

private theorem read_anchored {front back : Text} (start : front ∈ [[], ['^']]) (stop : back ∈ [[], ['$']])
    {node : Node} {meaning : Regex} (reads : Reads dialect node meaning) :
    Regex.read dialect (front ++ (if node.isChoice then grouped node.render else node.render) ++ back) =
      .ok (anchored front back meaning).flatten := by
  obtain ⟨first, cutsFront, givesFront⟩ := gives_front dialect start
  obtain ⟨middle, cuts, gives⟩ := reads.side
  obtain ⟨last, cutsBack, givesBack⟩ := gives_back dialect stop
  have whole := (givesFront.append gives).append givesBack
  rw [← layout_anchored] at whole
  exact read_of_gives ((cutsFront.append cuts).append cutsBack) whole (layout_ne_nil _) (solid_layout _)

/-- The builder that has no text of its own is read as the group without content that stands for it. -/
private theorem read_emptyGroup {node : Node} {meaning : Regex} (reads : Reads dialect node meaning)
    (none : node.render = []) : Regex.read dialect emptyGroup = .ok meaning.flatten := by
  obtain ⟨pieces, cuts, gives⟩ := reads.text
  have group := gives.group .plain
  have whole := cutsItem_grouped cuts
  rw [none] at whole
  have runs := group {} []
  rw [List.append_nil] at runs
  simp only [Regex.read, emptyGroup, whole.cuts.tokens_eq, runs, Reading.run, Reading.finish]
  simp only [feed, Branches.whole, Branches.current, Opening.close]
  cases flat : meaning.flatten <;> rfl

theorem read_source_of_reads {builder : Builder} {meaning : Regex} (anchors : Anchors builder)
    (reads : Reads dialect builder.node meaning) :
    Regex.read dialect builder.source = .ok (anchored builder.front builder.back meaning).flatten := by
  have bare : (anchored [] [] meaning).flatten = meaning.flatten := by
    rw [flatten, layout_anchored]
    simpa [ofLayout, altAll, flatten] using seqAll_inSequence meaning.layout
  unfold Builder.source
  split
  next empty =>
    simp only [Bool.and_eq_true, Bool.not_eq_true', Builder.isAnchored, Bool.or_eq_false_iff, Bool.not_eq_false',
      List.isEmpty_iff] at empty
    obtain ⟨nothing, front, back⟩ := empty
    have none : builder.node.render = [] := by
      cases node : builder.node <;> simp_all [Node.isEmpty, Node.render]
    rw [front, back, bare]
    exact read_emptyGroup reads none
  next =>
    cases anchored : builder.isAnchored with
    | true =>
      simp only [Bool.true_and]
      exact read_anchored anchors.1 anchors.2 reads
    | false =>
      simp only [Builder.isAnchored, Bool.or_eq_false_iff, Bool.not_eq_false', List.isEmpty_iff] at anchored
      rw [anchored.1, anchored.2, bare]
      simpa using read_of_reads reads

theorem read_source {builder : Builder} {meaning : Regex} (anchors : Anchors builder)
    (denotes : Denotes builder.node meaning) (readable : Readable dialect builder.node) :
    Regex.read dialect builder.source = .ok (anchored builder.front builder.back meaning).flatten :=
  read_source_of_reads anchors (reads_of_denotes denotes readable)

end FluentPattern.Proofs.SourceReading
