import FluentPattern.Proofs.GroupLists
import FluentPattern.Proofs.GroupReading
import FluentPattern.Proofs.LiteralMatching
import FluentPattern.Proofs.Progress
import FluentPattern.Proofs.Substitution

/-! The names of groups. The groups of a regex are those that the text opens, in the order in which it opens them, and
the names of them are made of letters, digits and low lines only. But what is written as the name of a group is not
looked at before: where it is not such a name, its text goes on as a part of the pattern. -/

namespace FluentPattern

namespace Regex

def Token.names : Token → List (Option Text)
  | .item regex => regex.groupNames
  | .opening (.capture name) => [name]
  | _ => []

end Regex

namespace Proofs.GroupNames
open Regex Tokens NodeReading SourceReading Searching TextCompiling LiteralMatching GroupReading

variable {dialect : Dialect}

section Reading

def branchNames (inside : Branches) : List (Option Text) :=
  (inside.done.reverse ++ inside.pieces.reverse).flatMap groupNames

/-- The groups around what is being read, in the order in which they were opened. -/
def aroundNames : List (Opening × Branches) → List (Option Text)
  | [] => []
  | (kind, outer) :: around => aroundNames around ++ branchNames outer ++ Token.names (.opening kind)

theorem groupNames_chain (regexes : List Regex) : (chain regexes).groupNames = regexes.flatMap groupNames := by
  induction regexes with
  | nil => rfl
  | cons regex regexes ih => rw [chain, groupNames, ih, List.flatMap_cons]

theorem groupNames_seqAll (regexes : List Regex) : (seqAll regexes).groupNames = regexes.flatMap groupNames := by
  unfold seqAll
  split
  · rw [List.flatMap_singleton]
  · exact groupNames_chain _

theorem groupNames_altAll (regexes : List Regex) : (altAll regexes).groupNames = regexes.flatMap groupNames := by
  fun_induction altAll regexes with
  | case1 => rfl
  | case2 regex => rw [List.flatMap_singleton]
  | case3 regex rest _ ih => rw [groupNames, ih, List.flatMap_cons]

theorem groupNames_current (inside : Branches) :
    inside.current.groupNames = inside.pieces.reverse.flatMap groupNames := by
  rw [Branches.current, groupNames_seqAll]
  induction inside.pieces.reverse with
  | nil => rfl
  | cons piece pieces ih =>
    cases piece with
    | empty => exact ih
    | _ => exact congrArg (_ ++ ·) ih

theorem groupNames_whole (inside : Branches) : inside.whole.groupNames = branchNames inside := by
  rw [Branches.whole, groupNames_altAll, List.flatMap_append, List.flatMap_singleton, groupNames_current, branchNames,
    List.flatMap_append]

theorem branchNames_push (inside : Branches) (regex : Regex) :
    branchNames (inside.push regex) = branchNames inside ++ regex.groupNames := by
  simp [branchNames, Branches.push]

theorem branchNames_next (inside : Branches) : branchNames inside.next = branchNames inside := by
  simp [branchNames, Branches.next, groupNames_current]

theorem groupNames_close (kind : Opening) (inside : Regex) :
    (kind.close inside).groupNames = Token.names (.opening kind) ++ inside.groupNames := by
  cases kind <;> rfl

/-- A token adds the group that it opens behind all groups before it. -/
theorem names_step {reading next : Reading} {token : Token} (step : Steps dialect reading token next) :
    aroundNames next.around ++ branchNames next.inside =
      aroundNames reading.around ++ branchNames reading.inside ++ token.names := by
  cases step with
  | item inside around regex => rw [branchNames_push, List.append_assoc]; rfl
  | bar inside around => rw [branchNames_next]; exact (List.append_nil _).symm
  | opening inside around kind => simp [aroundNames, branchNames]
  | closing inside around kind outer =>
    simp [aroundNames, branchNames_push, groupNames_close, groupNames_whole, Token.names]
  | @change token change sign done earlier around piece =>
    have same : (change piece).groupNames = piece.groupNames ∧ token.names = [] := by
      cases token <;> cases sign <;> exact ⟨rfl, rfl⟩
    simp [branchNames, same]

theorem names_runs {reading next : Reading} {pieces : List Token} (runs : Runs dialect reading pieces next) :
    aroundNames next.around ++ branchNames next.inside =
      aroundNames reading.around ++ branchNames reading.inside ++ pieces.flatMap Token.names := by
  induction runs with
  | nil => simp
  | cons step _ ih => rw [ih, names_step step, List.flatMap_cons, List.append_assoc]

/-- The groups of a regex are numbered in the order in which the text opens them. -/
theorem groupNames_of_read {text : Text} {regex : Regex} (reads : Regex.read dialect text = .ok regex) :
    regex.groupNames = (tokens dialect (.outside .nothing) text).flatMap Token.names := by
  unfold Regex.read at reads
  split at reads
  next reading ran =>
    unfold Reading.finish at reads
    split at reads
    next closed =>
      have names := names_runs (run_eq_ok_iff.mp ran)
      rw [List.isEmpty_iff.mp closed] at names
      cases reads
      simpa [aroundNames, branchNames, groupNames_whole] using names
    next => cases reads
  next => cases reads

theorem validName_of_token {scan : Scan} {text : Text} {token : Token} (member : token ∈ tokens dialect scan text)
    (begun : ∀ read, scan = .name read → ∀ c ∈ read, isNameCharacter c) {name : Text}
    (opened : some name ∈ token.names) : ValidName name := by
  fun_induction tokens dialect scan text
  case case30 read c rest closed ih =>
    rcases List.mem_cons.mp member with rfl | member
    · obtain rfl : name = read.reverse := by simpa [Token.names] using opened
      refine ⟨by simpa using closed.2, fun c inside => ?_⟩
      exact begun read rfl c (List.mem_reverse.mp inside)
    · exact ih member nofun
  case case51 count reading _ rest ih =>
    refine ih member fun read same => ?_
    split at same <;> cases same
  -- What the other characters open has no name, and the name that is being read only grows.
  all_goals try rcases List.mem_cons.mp member with rfl | member
  all_goals simp_all [Token.names, groupNames]

/-- Every name in a regex that has been read is one that groups can have. -/
theorem validName_of_read {text : Text} {regex : Regex} (reads : Regex.read dialect text = .ok regex) {name : Text}
    (named : some name ∈ regex.groupNames) : ValidName name := by
  rw [groupNames_of_read reads] at named
  obtain ⟨token, member, opened⟩ := List.mem_flatMap.mp named
  exact validName_of_token member nofun opened

end Reading

section Groups

variable {pattern : Pattern} {name : Text} {body : Regex}

theorem lookup_one_of_search? {mode : Mode} (plain : body.isPlain) {cursor : Cursor} {found : Found}
    (searched : (Regex.capture (some name) body).search? mode cursor = some found) :
    found.groups.lookup 1 = some found.whole := by
  unfold Regex.search? at searched
  rw [plan_of_isPlain (by simpa [isPlain] using plain)] at searched
  obtain ⟨place, -, state, member, whole, same⟩ := Progress.exists_state_of_search? searched
  rw [← same]
  -- The outer group is noted last, and the group inside it right before, from the same place to the same place.
  obtain ⟨_, entered, moved⟩ := List.mem_filterMap.mp (mem_of_mem_fresh member)
  obtain rfl := List.mem_singleton.mp entered
  obtain ⟨outer, first, rfl⟩ := Option.map_eq_some_iff.mp moved
  obtain ⟨_, entered, noted⟩ := List.mem_flatMap.mp (mem_of_mem_fresh (List.mem_of_mem_head? first))
  obtain rfl := List.mem_singleton.mp entered
  obtain ⟨inner, inside, rfl⟩ := List.mem_map.mp noted
  obtain ⟨_, entered, noted⟩ := List.mem_flatMap.mp (mem_of_mem_fresh inside)
  obtain rfl := List.mem_singleton.mp entered
  obtain ⟨last, -, rfl⟩ := List.mem_map.mp noted
  simpa [State.goTo, State.record, List.lookup_cons] using whole

private theorem reportedGroups_capture (single : body.groupCount = 0) :
    (Regex.capture (some name) body).reportedGroups = 2 := by
  have none : body.groups = [] := List.eq_nil_of_length_eq_zero ((length_groups body).trans single)
  rw [reportedGroups_eq, groups, none]
  split <;> rfl

theorem named?_of_capture (plain : body.isPlain) (single : body.groupCount = 0)
    (regex : pattern.regex = .capture (some name) body) {haystack : Text} {whole : Match}
    (finds : pattern.find? haystack = some whole) :
    ∃ captures, pattern.captures? haystack = some captures ∧ captures.named? name = some whole := by
  obtain ⟨found, searched, rfl⟩ := Option.map_eq_some_iff.mp finds
  have none : body.groupNames = [] := List.eq_nil_of_length_eq_zero ((length_groupNames body).trans single)
  have names : pattern.regex.groupNames = [some name] := by rw [regex, groupNames, none]
  have captures : pattern.captures? haystack =
      some ⟨[found.groups.lookup 0, found.groups.lookup 1], pattern.regex.nameTable⟩ := by
    simp [Pattern.captures?, searched, regex, reportedGroups_capture single, List.range_succ]
  have last (other : Nat) (place : pattern.regex.groupNames[other]? = some (some name)) : other ≤ 0 := by
    rw [names] at place
    cases other with
    | zero => exact Nat.le_refl 0
    | succ other => cases place
  refine ⟨_, captures, ?_⟩
  rw [Captures.named?_eq_get? rfl (by rw [names]; rfl) last]
  rw [Pattern.search?, regex] at searched
  exact lookup_one_of_search? plain searched

theorem mem_groupNames_of_named? {haystack : Text} {captures : Captures} {m : Match}
    (captured : pattern.captures? haystack = some captures) (named : captures.named? name = some m) :
    some name ∈ pattern.regex.groupNames := by
  obtain ⟨found, -, rfl⟩ := Option.map_eq_some_iff.mp captured
  by_contra absent
  rw [Captures.named?_eq_none rfl absent] at named
  cases named

end Groups

section Texts

variable {text name : Text}

/-- Whether a pattern finds what another one finds, and has it under a name. -/
def FindsUnder (name : Text) (plain pattern : Pattern) : Prop :=
  ∀ haystack, pattern.find? haystack = plain.find? haystack ∧
    ∀ whole, pattern.find? haystack = some whole →
      ∃ captures, pattern.captures? haystack = some captures ∧ captures.named? name = some whole

theorem exists_captured (text : Text) (valid : ValidName name) (flags : FlagSet) (known : flags.error? = none) :
    ∃ pattern, Builder.compile ⟨[], .capture (.literal text) (some name), [], flags⟩ = .ok pattern ∧
      pattern.regex = .capture (some name) (seqAll (characters text.collapseBackslashes)) ∧ pattern.flags = flags := by
  have opens : Opens .engine (Node.captureSign (some name)) (.capture (some name)) :=
    opens_capture fun _ same => Option.some.inj same ▸ valid
  have cuts := (opens.cutsItem (cuts_escaped text.collapseBackslashes)).cuts
  have inside : Gives .engine ((characters text.collapseBackslashes).map .item)
      (literalRegex text.collapseBackslashes).layout := by
    rw [layout_literalRegex]
    exact .items _
  have flat : (literalRegex text.collapseBackslashes).flatten = seqAll (characters text.collapseBackslashes) := by
    rw [flatten, layout_literalRegex]
    rfl
  have gives := inside.group (.capture (some name))
  rw [flat, Opening.close] at gives
  have shallow : nesting 0 ([.opening (.capture (some name))] ++ (characters text.collapseBackslashes).map .item ++
      [.closing]) = 1 := by
    simp only [List.cons_append, List.nil_append, nesting, nesting_items_append]
    rfl
  rw [characters, List.map_map] at gives shallow
  have source : Builder.source ⟨[], .capture (.literal text) (some name), [], flags⟩ =
      Node.captureSign (some name) ++ text.escapeForPattern ++ [')'] := by
    simp [Builder.source, Builder.isAnchored, Node.isEmpty, Node.render, Node.literal]
  rw [Builder.compile, source]
  refine exists_of_light cuts gives (shallow.le.trans (by decide)) (fun piece member => ?_) known
  obtain rfl := List.mem_singleton.mp member
  exact Simple.light_capture (simple_characters _) (some name) flags.mode

/-- Under a name that groups can have, a text finds what it finds without one. -/
theorem findsUnder_of_validName (valid : ValidName name) {plain pattern : Pattern}
    (alone : (Builder.of (.text text)).compile = .ok plain)
    (captured : Builder.compile ⟨[], .capture (.literal text) (some name), [], .standard⟩ = .ok pattern) :
    FindsUnder name plain pattern := by
  obtain ⟨_, compiles, regex, flags⟩ := exists_captured text valid .standard (by decide)
  obtain rfl := Except.ok.inj (captured.symm.trans compiles)
  obtain ⟨_, compiles, same, flags'⟩ := Substitution.exists_word text .standard (by decide)
  obtain rfl := Except.ok.inj (alone.symm.trans compiles)
  have modes : pattern.mode = plain.mode := by rw [Pattern.mode, flags, Pattern.mode, flags']
  have body : Regrouped (seqAll (characters text.collapseBackslashes)) (literalRegex text.collapseBackslashes) :=
    .seqAll_chain _
  have plainBody : (seqAll (characters text.collapseBackslashes)).isPlain :=
    Light.isPlain_seqAll fun piece member => (simple_characters _ piece member).light pattern.mode
  have single : (seqAll (characters text.collapseBackslashes)).groupCount = 0 := by
    have none : (seqAll (characters text.collapseBackslashes)).groupNames = [] := by
      rw [groupNames_seqAll]
      simp [characters, groupNames]
    rw [← length_groupNames, none, List.length_nil]
  intro haystack
  refine ⟨?_, fun whole finds => named?_of_capture plainBody single regex finds⟩
  have steady : plain.regex.isSteady := by
    rw [same.isSteady_eq]
    exact isSteady_literalRegex _
  have steady' : pattern.regex.isSteady := by
    rw [regex, isSteady, body.isSteady_eq]
    exact isSteady_literalRegex _
  have ends : pattern.regex.ends pattern.mode = plain.regex.ends plain.mode := by
    rw [same.ends_eq, ← body.ends_eq, regex, modes]
    rfl
  rw [Pattern.find?_eq_leftmost steady, Pattern.find?_eq_leftmost steady', ends]

private theorem find?_word {plain : Pattern} (alone : (Builder.of (.text text)).compile = .ok plain) :
    ∃ whole, plain.find? text.collapseBackslashes = some whole := by
  obtain ⟨_, compiles, same, flags⟩ := Substitution.exists_word text .standard (by decide)
  obtain rfl := Except.ok.inj (alone.symm.trans compiles)
  have caseful : plain.mode.ignoreCase = false := by
    rw [Pattern.mode, flags]
    decide
  have steady : plain.regex.isSteady := by
    rw [same.isSteady_eq]
    exact isSteady_literalRegex _
  rw [Pattern.find?_eq_leftmost steady, same.ends_eq, ← Option.isSome_iff_exists, leftmost_isSome]
  exact ⟨[], _, rfl, by simp [ends_literalRegex caseful]⟩

/-- A pattern has nothing under what cannot be the name of a group. -/
theorem validName_of_findsUnder {plain pattern : Pattern} (alone : (Builder.of (.text text)).compile = .ok plain)
    (finds : FindsUnder name plain pattern) : ValidName name := by
  obtain ⟨whole, found⟩ := find?_word alone
  obtain ⟨same, captured⟩ := finds text.collapseBackslashes
  obtain ⟨captures, some, named⟩ := captured whole (same.trans found)
  exact validName_of_read pattern.read_source (mem_groupNames_of_named? some named)

/-- A text that is captured under a name compiles if groups can have the name. What it compiles to finds what the text
finds alone, and has it under the name, if groups can have the name and only then. -/
theorem findsUnder_iff_validName (text name : Text) :
    ∃ plain builder, (Builder.of (.text text)).compile = .ok plain ∧
      (Builder.of (.text text)).apply (.capture (some name)) = .ok builder ∧
      (ValidName name → ∃ pattern, builder.compile = .ok pattern) ∧
      ∀ pattern, builder.compile = .ok pattern → (FindsUnder name plain pattern ↔ ValidName name) := by
  obtain ⟨plain, alone, -, -⟩ := Substitution.exists_word text .standard (by decide)
  have alone : (Builder.of (.text text)).compile = .ok plain := alone
  refine ⟨plain, _, alone, rfl, fun valid => ?_, fun pattern captured => ⟨fun finds => ?_, fun valid => ?_⟩⟩
  · obtain ⟨pattern, compiles, -, -⟩ := exists_captured text valid .standard (by decide)
    exact ⟨pattern, compiles⟩
  · exact validName_of_findsUnder alone finds
  · exact findsUnder_of_validName valid alone captured

/-- The name that is written before the text ends early, and the rest of it has to be found too: `(?<x>b>a)`. -/
theorem name_goes_on_as_pattern :
    ∃ plain builder pattern, (Builder.of (.text ['a'])).compile = .ok plain ∧
      (Builder.of (.text ['a'])).apply (.capture (some ['x', '>', 'b'])) = .ok builder ∧
      builder.compile = .ok pattern ∧ (plain.find? ['a']).isSome ∧ pattern.find? ['a'] = none :=
  ⟨_, _, _, rfl, rfl, rfl, by decide, by decide⟩

end Texts

end Proofs.GroupNames
end FluentPattern
