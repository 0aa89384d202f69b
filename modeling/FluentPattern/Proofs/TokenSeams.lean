import FluentPattern.Proofs.Tokens

/-! Where two texts meet. A text that is cut into tokens without a fault ends where a token ends, so what comes after it
is cut as if it stood alone. The one exception is a brace that is plain in the first text and starts a repetition
only together with the second one; then the tokens part right there. No parenthesis brings that about. -/

namespace FluentPattern.Proofs.TokenSeams
open Regex Tokens

variable {dialect : Dialect}

def Sound (pieces : List Token) : Prop := ∀ fault, Token.fault fault ∉ pieces

theorem Sound.of_cons {token : Token} {pieces : List Token} (sound : Sound (token :: pieces)) : Sound pieces :=
  fun fault member => sound fault (List.mem_cons_of_mem token member)

private theorem not_sound_fault (fault : Fault) : ¬Sound [.fault fault] := fun sound => sound fault List.mem_cons_self

/-- Two texts are the same up to a brace that is a repetition in one of them and plain in the other. -/
def Parted (one other : List Token) : Prop :=
  ∃ common bounds greed more rest,
    one = common ++ .times bounds greed :: more ∧ other = common ++ .item (.char (.single '{')) :: rest

theorem Parted.cons {one other : List Token} (parted : Parted one other) (token : Token) :
    Parted (token :: one) (token :: other) := by
  obtain ⟨common, bounds, greed, more, rest, rfl, rfl⟩ := parted
  exact ⟨token :: common, bounds, greed, more, rest, rfl, rfl⟩

/-- A text that no repetition before it can run on into. -/
def Barrier (dialect : Dialect) (back : Text) : Prop :=
  Settled back ∧ ∀ front, bounds? dialect (front ++ back) = bounds? dialect front

private theorem span_append {property : Char → Bool} {front : Text} (back : Text)
    (ends : front.dropWhile property ≠ [] ∨ ∀ c ∈ back.head?, property c = false) :
    (front ++ back).takeWhile property = front.takeWhile property ∧
      (front ++ back).dropWhile property = front.dropWhile property ++ back := by
  induction front with
  | nil =>
    have stop : ∀ c ∈ back.head?, property c = false := ends.resolve_left fun more => more rfl
    cases back with
    | nil => exact ⟨rfl, rfl⟩
    | cons c back => simp [stop c rfl]
  | cons c front ih =>
    cases holds : property c with
    | false => simp [holds]
    | true =>
      have ends' : front.dropWhile property ≠ [] ∨ ∀ c ∈ back.head?, property c = false := by
        simpa [List.dropWhile_cons, holds] using ends
      simp [holds, ih ends']

private theorem bounds?_append {front : Text} {bounds : Bounds} (reads : bounds? dialect front = some bounds)
    (back : Text) :
    bounds? dialect (front ++ back) = some bounds := by
  unfold bounds? at reads
  simp only at reads
  split at reads
  next least after low rest =>
    have spans := span_append back (.inl (rest ▸ List.cons_ne_nil _ _))
    simpa [bounds?, spans, low, rest] using reads
  next least after low rest =>
    have spans := span_append back (.inl (rest ▸ List.cons_ne_nil _ _))
    split at reads
    next most after' high rest' =>
      have spans' := span_append back (.inl (rest' ▸ List.cons_ne_nil _ _))
      simpa [bounds?, spans, low, rest, spans', high, rest'] using reads
    next => cases reads
  next => cases reads

private theorem mem_of_dropWhile {property : Char → Bool} {text after : Text} {c : Char}
    (rest : text.dropWhile property = c :: after) : c ∈ text :=
  List.dropWhile_subset _ (rest ▸ List.mem_cons_self)

private theorem brace_mem_of_bounds? {text : Text} {bounds : Bounds} (reads : bounds? dialect text = some bounds) :
    '}' ∈ text := by
  unfold bounds? at reads
  simp only at reads
  split at reads
  next rest => exact mem_of_dropWhile rest
  next after _ rest =>
    split at reads
    next rest' =>
      have inside : '}' ∈ ',' :: after := List.mem_cons_of_mem _ (mem_of_dropWhile rest')
      exact List.dropWhile_subset _ (rest ▸ inside)
    next => cases reads
  next => cases reads

/-- Bounds hold nothing but digits, a comma and a brace. -/
theorem barrier_of_head {c : Char} {back : Text} (harmless : c ∉ ['?', '*', '+', '{']) (strange : c ∉ ['}', ','])
    (noDigit : c.isDigit = false) : Barrier dialect (c :: back) := by
  refine ⟨settled_cons harmless, fun front => ?_⟩
  simp only [List.mem_cons, List.not_mem_nil, or_false, not_or] at strange
  have spans (text : Text) :
      (text ++ c :: back).takeWhile Char.isDigit = text.takeWhile Char.isDigit ∧
        (text ++ c :: back).dropWhile Char.isDigit = text.dropWhile Char.isDigit ++ c :: back :=
    span_append _ (.inr (by simpa using noDigit))
  unfold bounds?
  simp only [spans]
  cases bound? dialect (front.takeWhile Char.isDigit) with
  | none => rfl
  | some least =>
    cases front.dropWhile Char.isDigit with
    | nil => simp [strange]
    | cons sign after =>
      by_cases comma : sign = ','
      · subst comma
        simp only [List.cons_append, spans]
        cases bound? dialect (after.takeWhile Char.isDigit) with
        | none => rfl
        | some most =>
          cases after.dropWhile Char.isDigit with
          | nil => simp [strange]
          | cons sign after => by_cases brace : sign = '}' <;> simp [brace]
      · by_cases brace : sign = '}' <;> simp [comma, brace]

private theorem namedClass?_of_bracket (negated : Bool) {name : Text} (bracket : ']' ∈ name) :
    namedClass? negated name = none := by
  have letters : ∀ named ∈ namedRanges, ']' ∉ named.1.toList := by decide
  have unknown : namedRanges.lookup (String.ofList name) = none := by
    simp only [List.lookup_eq_none_iff, bne_iff_ne]
    rintro named member same
    refine letters named member ?_
    rw [← same]
    simpa using bracket
  simp [namedClass?, unknown]

private theorem match_append (negated : Bool) {named back : Text} (bracket : ']' ∈ named) {size size' : Nat}
    (longer : size' = size + back.length) :
    (match (named ++ back).dropWhile (· != ':') with
      | ':' :: ']' :: after =>
        (namedClass? negated ((named ++ back).takeWhile (· != ':'))).map fun set => (set, size' - after.length)
      | _ => none) =
    match named.dropWhile (· != ':') with
      | ':' :: ']' :: after =>
        (namedClass? negated (named.takeWhile (· != ':'))).map fun set => (set, size - after.length)
      | _ => none := by
  have joined := List.takeWhile_append_dropWhile (p := (· != ':')) (l := named)
  cases rest : named.dropWhile (· != ':') with
  | nil =>
    rw [rest, List.append_nil] at joined
    have long : ']' ∈ (named ++ back).takeWhile (· != ':') := by
      rw [List.takeWhile_append, if_pos (congrArg List.length joined)]
      exact List.mem_append_left _ bracket
    rw [namedClass?_of_bracket negated long]
    split <;> rfl
  | cons colon after =>
    have spans := span_append back (.inl (rest ▸ List.cons_ne_nil _ _))
    rw [spans.1, spans.2, rest]
    cases after with
    | nil =>
      have inName : ']' ∈ named.takeWhile (· != ':') := by
        have stop : colon = ':' := by
          have fails := List.head?_dropWhile_not (· != ':') named
          simpa [rest] using fails
        rw [← joined, rest] at bracket
        refine (List.mem_append.mp bracket).resolve_right ?_
        simp [stop]
      rw [namedClass?_of_bracket negated inName]
      split <;> simp
    | cons sign after =>
      by_cases ends : colon = ':'
      · subst ends
        by_cases closes : sign = ']'
        · subst closes
          simp only [List.cons_append, List.length_append, longer]
          rw [Nat.add_sub_add_right]
        · simp [closes]
      · simp [ends]

private theorem readNamedClass?_append {text : Text} (closes : ']' ∈ text) (back : Text) :
    readNamedClass? (text ++ back) = readNamedClass? text := by
  cases text with
  | nil => cases closes
  | cons c rest =>
    by_cases colon : c = ':'
    · subst colon
      have inRest : ']' ∈ rest := (List.mem_cons.mp closes).resolve_left (by decide)
      obtain ⟨first, later, rfl⟩ := List.exists_cons_of_ne_nil (List.ne_nil_of_mem inRest)
      simp only [readNamedClass?, List.cons_append, List.head?_cons, List.tail_cons, Option.some.injEq]
      by_cases sign : first = '^'
      · subst sign
        have inLater : ']' ∈ later := (List.mem_cons.mp inRest).resolve_left (by decide)
        exact match_append true inLater (by simp only [List.length_cons, List.length_append]; omega)
      · simp only [sign, if_false, ← List.cons_append]
        exact match_append false inRest (by simp only [List.length_cons, List.length_append])
    · simp [readNamedClass?, colon]

private theorem step_bracket (reading : ClassReading) (rest other : Text) :
    reading.step ']' rest = reading.step ']' other := by
  have noOperator (rest : Text) : operator? ']' rest = none := by
    unfold operator?
    split <;> rfl
  have starts (reading : ClassReading) : reading.start ']' rest = reading.start ']' other := by
    simp [ClassReading.start, noOperator]
  unfold ClassReading.step
  cases reading.phase with
  | opened | signed => simp [ClassReading.begin]
  | hyphens | between => simp [starts]
  | item set => simp [starts]
  | rangeFrom first => rfl

private theorem step_of_closed {reading : ClassReading} {c : Char} {rest : Text} {set : CharSet}
    (closed : reading.step c rest = .closed set) : c = ']' := by
  have starts {reading : ClassReading} (closed : reading.start c rest = .closed set) : c = ']' := by
    unfold ClassReading.start at closed
    split at closed
    · cases closed
    · split at closed
      · unfold ClassReading.enter at closed
        split at closed <;> cases closed
      · rfl
      · cases closed
  have begins {reading : ClassReading} (closed : reading.begin c rest = .closed set) : c = ']' := by
    unfold ClassReading.begin at closed
    split at closed
    · cases closed
    · rfl
    · exact starts closed
  unfold ClassReading.step at closed
  split at closed
  · split at closed
    · cases closed
    · exact begins closed
  · exact begins closed
  · split at closed
    · cases closed
    · exact starts closed
  · exact starts closed
  · split at closed
    · split at closed <;> cases closed
    · exact starts closed
  · split at closed
    · cases closed
    · unfold ClassReading.endRange at closed
      split at closed <;> cases closed

private theorem stepEscaped_ne_closed (reading : ClassReading) (c : Char) (set : CharSet) :
    reading.stepEscaped c ≠ .closed set := by
  unfold ClassReading.stepEscaped ClassReading.endRange
  split
  · simp
  · split <;> simp
  · simp
  · simp

private def inClass : Scan → Bool
  | .insideClass _ | .classEscape _ | .classRest .. => true
  | _ => false

private theorem bracket_mem {scan : Scan} (inside : inClass scan) {text : Text}
    (sound : Sound (tokens dialect scan text)) : ']' ∈ text := by
  induction text generalizing scan with
  | nil =>
    cases scan with
    | insideClass | classEscape | classRest => exact absurd sound (not_sound_fault _)
    | _ => cases inside
  | cons c rest ih =>
    cases scan with
    | insideClass reading =>
      simp only [tokens] at sound
      split at sound
      next => exact List.mem_cons_of_mem c (ih rfl sound)
      next =>
        split at sound
        next => exact List.mem_cons_of_mem c (ih rfl sound)
        next => exact List.mem_cons_of_mem c (ih rfl sound)
        next closed => exact step_of_closed closed ▸ List.mem_cons_self
        next => exact absurd sound (not_sound_fault _)
    | classEscape reading =>
      simp only [tokens] at sound
      split at sound
      next => exact List.mem_cons_of_mem c (ih rfl sound)
      next => exact List.mem_cons_of_mem c (ih rfl sound)
      next closed => exact absurd closed (stepEscaped_ne_closed _ _ _)
      next => exact absurd sound (not_sound_fault _)
    | classRest count reading =>
      simp only [tokens] at sound
      split at sound
      next => exact List.mem_cons_of_mem c (ih rfl sound)
      next => exact List.mem_cons_of_mem c (ih rfl sound)
    | _ => cases inside

private theorem step_append {reading : ClassReading} {c : Char} {rest : Text} (closes : ']' ∈ c :: rest) (back : Text) :
    reading.step c (rest ++ back) = reading.step c rest := by
  by_cases bracket : c = ']'
  · subst bracket
    exact step_bracket reading _ _
  · have later : ']' ∈ rest := (List.mem_cons.mp closes).resolve_left (Ne.symm bracket)
    have head : (rest ++ back).head? = rest.head? := by
      obtain ⟨first, more, rfl⟩ := List.exists_cons_of_ne_nil (List.ne_nil_of_mem later)
      rfl
    have starts (reading : ClassReading) : reading.start c (rest ++ back) = reading.start c rest := by
      simp only [ClassReading.start, operator?, ClassReading.enter, head, readNamedClass?_append later]
    have begins : reading.begin c (rest ++ back) = reading.begin c rest := by
      unfold ClassReading.begin
      split
      · rfl
      · rfl
      · exact starts reading
    simp only [ClassReading.step, begins, head, starts]

/-- Bounds that have been seen are a repetition, once their brace is reached. -/
private theorem tokens_braces_eq (bounds : Bounds) {text : Text} (closes : '}' ∈ text) :
    ∃ greed more, tokens dialect (.braces bounds) text = .times bounds greed :: more := by
  induction text with
  | nil => cases closes
  | cons c rest ih =>
    simp only [tokens]
    by_cases brace : c = '}'
    · rw [if_neg (not_not_intro brace)]
      split
      next =>
        cases rest with
        | nil => exact ⟨_, _, rfl⟩
        | cons _ more => exact ⟨_, _, rfl⟩
      next => exact ⟨_, _, rfl⟩
    · rw [if_pos brace]
      exact ih ((List.mem_cons.mp closes).resolve_left (Ne.symm brace))

private def Unsigned (text : Text) : Prop := ∀ c ∈ text.head?, signBounds? c = none

/-- Tokens are those of two texts, or they part from them at a brace, if only the second text is no barrier. -/
private def Meets (barrier : Prop) (joined one other : List Token) : Prop :=
  joined = one ++ other ∨ ¬barrier ∧ Parted joined (one ++ other)

private theorem Meets.cons {barrier : Prop} {joined one other : List Token} (meets : Meets barrier joined one other)
    (token : Token) : Meets barrier (token :: joined) (token :: one) other := by
  rcases meets with same | ⟨gap, parted⟩
  · exact .inl (congrArg (token :: ·) same)
  · exact .inr ⟨gap, parted.cons token⟩

private theorem meets_nil {before : Before} {back : Text} (unsigned : Unsigned back) :
    Meets (Barrier dialect back) (tokens dialect (.outside before) back) []
      (tokens dialect (.outside .nothing) back) := by
  cases back with
  | nil => exact .inl rfl
  | cons c rest =>
    have sign : signBounds? c = none := unsigned c rfl
    by_cases brace : c = '{' ∧ before = .item
    · obtain ⟨rfl, rfl⟩ := brace
      cases reads : bounds? dialect rest with
      | none => exact .inl (by simp [tokens, sign, reads])
      | some bounds =>
        obtain ⟨greed, more, times⟩ := tokens_braces_eq bounds (brace_mem_of_bounds? reads)
        refine .inr ⟨fun barrier => barrier.1 '{' rfl (by simp), [], bounds, greed, more,
          tokens dialect (.outside .item) rest, ?_, ?_⟩
        · simpa [tokens, sign, reads] using times
        · simp [tokens, sign]
    · refine .inl ?_
      simp only [List.nil_append, tokens, sign]
      split
      all_goals first | rfl | simp [brace]

private def Pending : Scan → Prop
  | .lazyMark _ => True
  | _ => False

/-- A text in front of another one is cut like the text alone, in whatever state the cutting starts. -/
private def Meet (dialect : Dialect) (front back : Text) : Prop :=
  ∀ scan, Sound (tokens dialect scan front) → (Pending scan → front ≠ []) →
    Meets (Barrier dialect back) (tokens dialect scan (front ++ back)) (tokens dialect scan front)
      (tokens dialect (.outside .nothing) back)

section Steps

variable {rest back : Text}

private theorem Meet.next (later : Meet dialect rest back) {scan : Scan} (sound : Sound (tokens dialect scan rest))
    (done : ¬Pending scan) :
    Meets (Barrier dialect back) (tokens dialect scan (rest ++ back)) (tokens dialect scan rest)
      (tokens dialect (.outside .nothing) back) :=
  later scan sound fun pending => absurd pending done

private theorem Meet.lazyMark (later : Meet dialect rest back) {bounds : Bounds}
    (sound : Sound (tokens dialect (.lazyMark bounds) rest)) (mark : rest.head? = some '?') :
    Meets (Barrier dialect back) (tokens dialect (.lazyMark bounds) (rest ++ back))
      (tokens dialect (.lazyMark bounds) rest) (tokens dialect (.outside .nothing) back) := by
  refine later _ sound fun _ none => ?_
  rw [none] at mark
  cases mark

private theorem head?_append_iff (unsigned : Unsigned back) :
    (rest ++ back).head? = some '?' ↔ rest.head? = some '?' := by
  cases rest with
  | nil =>
    refine ⟨fun first => ?_, by simp⟩
    have none := unsigned '?' first
    simp [signBounds?] at none
  | cons => rfl

private theorem meets_brace (later : Meet dialect rest back)
    (sound : Sound (tokens dialect (.outside .item) ('{' :: rest))) :
    Meets (Barrier dialect back) (tokens dialect (.outside .item) ('{' :: (rest ++ back)))
      (tokens dialect (.outside .item) ('{' :: rest)) (tokens dialect (.outside .nothing) back) := by
  have sign : signBounds? '{' = none := rfl
  simp only [tokens, sign] at sound ⊢
  cases reads : bounds? dialect rest with
  | some bounds =>
    simp only [reads, bounds?_append reads back] at sound ⊢
    exact later.next sound id
  | none =>
    simp only [reads] at sound ⊢
    cases reads' : bounds? dialect (rest ++ back) with
    | none => exact (later.next sound.of_cons id).cons _
    | some bounds =>
      obtain ⟨greed, more, times⟩ := tokens_braces_eq bounds (brace_mem_of_bounds? reads')
      refine .inr ⟨fun barrier => ?_, [], bounds, greed, more, _, times, rfl⟩
      rw [barrier.2, reads] at reads'
      cases reads'

private theorem meets_sign {before : Before} {c : Char} {bounds : Bounds} (sign : signBounds? c = some bounds)
    (later : Meet dialect rest back) (unsigned : Unsigned back)
    (sound : Sound (tokens dialect (.outside before) (c :: rest))) :
    Meets (Barrier dialect back) (tokens dialect (.outside before) (c :: (rest ++ back)))
      (tokens dialect (.outside before) (c :: rest)) (tokens dialect (.outside .nothing) back) := by
  simp only [tokens, sign, head?_append_iff unsigned] at sound ⊢
  cases before with
  | nothing => exact absurd sound (not_sound_fault _)
  | repetition =>
    by_cases plus : c = '+'
    · simp only [plus, if_true] at sound ⊢
      exact (later.next sound.of_cons id).cons _
    · simp only [plus, if_false] at sound
      exact absurd sound (not_sound_fault _)
  | item =>
    by_cases lazy : rest.head? = some '?'
    · simp only [lazy, if_true] at sound ⊢
      exact later.lazyMark sound lazy
    · simp only [lazy, if_false] at sound ⊢
      exact (later.next sound.of_cons id).cons _

private theorem meets_outside {before : Before} {c : Char} (later : Meet dialect rest back)
    (unsigned : Unsigned back) (sound : Sound (tokens dialect (.outside before) (c :: rest))) :
    Meets (Barrier dialect back) (tokens dialect (.outside before) (c :: (rest ++ back)))
      (tokens dialect (.outside before) (c :: rest)) (tokens dialect (.outside .nothing) back) := by
  by_cases brace : c = '{' ∧ before = .item
  · obtain ⟨rfl, rfl⟩ := brace
    exact meets_brace later sound
  cases sign : signBounds? c with
  | some bounds => exact meets_sign sign later unsigned sound
  | none =>
    simp only [tokens, sign, head?_append_iff unsigned] at sound ⊢
    split at sound
    next => exact later.next sound id
    next =>
      by_cases marked : rest.head? = some '?'
      · simp only [marked, if_true] at sound ⊢
        exact later.next sound id
      · simp only [marked, if_false] at sound ⊢
        exact (later.next sound.of_cons id).cons _
    next => exact (later.next sound.of_cons id).cons _
    next => exact (later.next sound.of_cons id).cons _
    next => exact later.next sound id
    next => exact (later.next sound.of_cons id).cons _
    next => exact (later.next sound.of_cons id).cons _
    next => exact (later.next sound.of_cons id).cons _
    next =>
      simp only [if_neg brace] at sound ⊢
      exact (later.next sound.of_cons id).cons _

private theorem meets_braces {bounds : Bounds} {c : Char} (later : Meet dialect rest back)
    (unsigned : Unsigned back) (sound : Sound (tokens dialect (.braces bounds) (c :: rest))) :
    Meets (Barrier dialect back) (tokens dialect (.braces bounds) (c :: (rest ++ back)))
      (tokens dialect (.braces bounds) (c :: rest)) (tokens dialect (.outside .nothing) back) := by
  simp only [tokens, head?_append_iff unsigned] at sound ⊢
  by_cases inside : c ≠ '}'
  · simp only [if_pos inside] at sound ⊢
    exact later.next sound id
  · simp only [if_neg inside] at sound ⊢
    by_cases lazy : rest.head? = some '?'
    · simp only [lazy, if_true] at sound ⊢
      exact later.lazyMark sound lazy
    · simp only [lazy, if_false] at sound ⊢
      exact (later.next sound.of_cons id).cons _

private theorem meets_insideClass {reading : ClassReading} {c : Char} (later : Meet dialect rest back)
    (sound : Sound (tokens dialect (.insideClass reading) (c :: rest))) :
    Meets (Barrier dialect back) (tokens dialect (.insideClass reading) (c :: (rest ++ back)))
      (tokens dialect (.insideClass reading) (c :: rest)) (tokens dialect (.outside .nothing) back) := by
  have closes := bracket_mem rfl sound
  simp only [tokens, step_append closes] at sound ⊢
  by_cases escape : c = '\\'
  · simp only [if_pos escape] at sound ⊢
    exact later.next sound id
  · simp only [if_neg escape] at sound ⊢
    split at sound
    next => exact later.next sound id
    next => exact later.next sound id
    next => exact (later.next sound.of_cons id).cons _
    next => exact absurd sound (not_sound_fault _)

end Steps

private theorem meet {back : Text} (unsigned : Unsigned back) (front : Text) :
    Meet dialect front back := by
  -- What a character does depends on the scan that reaches it, so the rest of the text is met in any scan.
  induction front with
  | nil =>
    intro scan sound complete
    cases scan with
    | outside before => exact meets_nil unsigned
    | lazyMark bounds => exact absurd rfl (complete trivial)
    | _ => exact absurd sound (not_sound_fault _)
  | cons c rest later =>
    intro scan sound complete
    cases scan with
    | outside before => exact meets_outside later unsigned sound
    | escape =>
      simp only [List.cons_append, tokens] at sound ⊢
      split at sound
      next => exact (later.next sound.of_cons id).cons _
      next => exact absurd sound (not_sound_fault _)
    | groupMark => exact later.next sound id
    | groupKind =>
      simp only [List.cons_append, tokens] at sound ⊢
      split at sound
      next => exact (later.next sound.of_cons id).cons _
      next => exact (later.next sound.of_cons id).cons _
      next => exact (later.next sound.of_cons id).cons _
      next => exact later.next sound id
      next => exact absurd sound (not_sound_fault _)
    | name read =>
      simp only [List.cons_append, tokens] at sound ⊢
      split at sound
      next closes => simpa [closes] using (later.next sound.of_cons id).cons _
      next more =>
        split at sound
        next letter => simpa [more, letter] using later.next sound id
        next => exact absurd sound (not_sound_fault _)
    | braces bounds => exact meets_braces later unsigned sound
    | lazyMark bounds => exact (later.next sound.of_cons id).cons _
    | insideClass reading => exact meets_insideClass later sound
    | classEscape reading =>
      simp only [List.cons_append, tokens] at sound ⊢
      split at sound
      next => exact later.next sound id
      next => exact later.next sound id
      next => exact (later.next sound.of_cons id).cons _
      next => exact absurd sound (not_sound_fault _)
    | classRest count reading =>
      simp only [List.cons_append, tokens] at sound ⊢
      exact later.next sound (by split <;> exact id)

/-- Nothing runs on over a barrier. -/
theorem tokens_append {front back : Text} (sound : Sound (tokens dialect (.outside .nothing) front))
    (barrier : Barrier dialect back) :
    tokens dialect (.outside .nothing) (front ++ back) =
      tokens dialect (.outside .nothing) front ++ tokens dialect (.outside .nothing) back := by
  have unsigned : Unsigned back := by
    intro c first
    have harmless := barrier.1 c first
    simp only [List.mem_cons, List.not_mem_nil, or_false, not_or] at harmless
    unfold signBounds?
    split <;> simp_all
  exact (meet unsigned front _ sound False.elim).resolve_right fun ⟨gap, _⟩ => gap barrier

/-- Two texts that stand together are cut like each of them alone, or their tokens part at a brace. -/
theorem tokens_append_or {front back : Text} (sound : Sound (tokens dialect (.outside .nothing) front))
    (sound' : Sound (tokens dialect (.outside .nothing) back)) :
    tokens dialect (.outside .nothing) (front ++ back) =
        tokens dialect (.outside .nothing) front ++ tokens dialect (.outside .nothing) back ∨
      Parted (tokens dialect (.outside .nothing) (front ++ back))
        (tokens dialect (.outside .nothing) front ++ tokens dialect (.outside .nothing) back) := by
  have unsigned : Unsigned back := by
    intro c first
    obtain ⟨rest, rfl⟩ := List.head?_eq_some_iff.mp first
    cases sign : signBounds? c with
    | none => rfl
    | some bounds =>
      simp only [tokens, sign] at sound'
      exact absurd sound' (not_sound_fault _)
  exact (meet unsigned front _ sound False.elim).imp_right And.right

end FluentPattern.Proofs.TokenSeams
