import FluentPattern.Proofs.Readings

/-! The grammar of pattern literals. Reading accepts the texts of the grammar and no others, and splits each of them
in the one way there is. The grammar knows nothing of states: a class is one item of a body. The reader goes through
a body character by character and only knows whether a class is open, so both are compared with the tails of a body
that are possible in either state. -/

namespace FluentPattern.Proofs.LiteralGrammar
open Literal

inductive ClassBody : Text → Prop where
  | nil : ClassBody []
  | escape {rest} (c : Char) (later : ClassBody rest) : ClassBody ('\\' :: c :: rest)
  | plain {c rest} (allowed : c ∉ [']', '\\', '\n', '\r']) (later : ClassBody rest) : ClassBody (c :: rest)

/-- A piece of the pattern in a literal. -/
inductive Item : Text → Prop where
  | escape (c : Char) : Item ['\\', c]
  | bracket {inside} (valid : ClassBody inside) : Item ('[' :: inside ++ [']'])
  | plain {c} (allowed : c ∉ ['/', '\\', '[', '\n', '\r']) : Item [c]

def Body (source : Text) : Prop := ∃ items : List Text, (∀ item ∈ items, Item item) ∧ source = items.flatten

def Flags (flags : Text) : Prop := flags.Nodup ∧ ∀ c ∈ flags, c.isAlpha

/-- A literal with its two parts. -/
def Splits (text source flags : Text) : Prop := text = '/' :: source ++ '/' :: flags ∧ Body source ∧ Flags flags

/-- The rest of a body, from a place inside or outside of a class on. -/
inductive Tail : Bool → Text → Prop where
  | nil : Tail false []
  | escape {inClass rest} (c : Char) (later : Tail inClass rest) : Tail inClass ('\\' :: c :: rest)
  | enter {rest} (later : Tail true rest) : Tail false ('[' :: rest)
  | leave {rest} (later : Tail false rest) : Tail true (']' :: rest)
  | inside {c rest} (allowed : c ∉ [']', '\\', '\n', '\r']) (later : Tail true rest) : Tail true (c :: rest)
  | outside {c rest} (allowed : c ∉ ['/', '\\', '[', '\n', '\r']) (later : Tail false rest) : Tail false (c :: rest)

private theorem body_nil : Body [] := ⟨[], by simp, rfl⟩

private theorem body_cons {item rest : Text} (first : Item item) (later : Body rest) : Body (item ++ rest) := by
  obtain ⟨items, valid, rfl⟩ := later
  exact ⟨item :: items, by simpa using ⟨first, valid⟩, rfl⟩

private theorem tail_class {inside rest : Text} (valid : ClassBody inside) (later : Tail false rest) :
    Tail true (inside ++ ']' :: rest) := by
  induction valid with
  | nil => exact .leave later
  | escape c _ ih => exact .escape c ih
  | plain allowed _ ih => exact .inside allowed ih

private theorem tail_item {item rest : Text} (valid : Item item) (later : Tail false rest) :
    Tail false (item ++ rest) := by
  cases valid with
  | escape c => exact .escape c later
  | bracket inside => simpa using Tail.enter (tail_class inside later)
  | plain allowed => exact .outside allowed later

private theorem tail_of_body {source : Text} (body : Body source) : Tail false source := by
  obtain ⟨items, valid, rfl⟩ := body
  induction items with
  | nil => exact .nil
  | cons item items ih =>
    exact tail_item (valid item List.mem_cons_self) (ih fun other member => valid other (List.mem_cons_of_mem _ member))

private theorem split_tail {inClass : Bool} {source : Text} (tail : Tail inClass source) :
    if inClass then ∃ inside rest, ClassBody inside ∧ Body rest ∧ source = inside ++ ']' :: rest else Body source := by
  induction tail with
  | nil => exact body_nil
  | @escape inClass rest c _ ih =>
    cases inClass with
    | false => exact body_cons (.escape c) ih
    | true =>
      obtain ⟨inside, rest, valid, body, rfl⟩ := ih
      exact ⟨_, rest, .escape c valid, body, rfl⟩
  | enter _ ih =>
    obtain ⟨inside, rest, valid, body, rfl⟩ := ih
    simpa using body_cons (.bracket valid) body
  | leave _ ih => exact ⟨[], _, .nil, ih, rfl⟩
  | inside allowed _ ih =>
    obtain ⟨inside, rest, valid, body, rfl⟩ := ih
    exact ⟨_, rest, .plain allowed valid, body, rfl⟩
  | outside allowed _ ih => exact body_cons (.plain allowed) ih

theorem tail_iff_body {source : Text} : Tail false source ↔ Body source :=
  ⟨fun tail => by simpa using split_tail tail, tail_of_body⟩

/-- The reader goes to the end of a tail and stops at the slash behind it. -/
theorem scanSource_of_tail {inClass : Bool} {source : Text} (tail : Tail inClass source) (before : List Char)
    (rest : Text) :
    scanSource inClass before (source ++ '/' :: rest) = (none, ⟨source.reverse ++ before, '/' :: rest⟩) := by
  induction tail generalizing before with
  | nil => simp [scanSource]
  | escape c _ ih => simp [scanSource, ih]
  | enter _ ih => simp [scanSource, ih]
  | leave _ ih => simp [scanSource, ih]
  | @inside c rest allowed _ ih =>
    simp only [List.mem_cons, List.not_mem_nil, or_false, not_or] at allowed
    have stays : (c == '[' || c != ']') = true := by simp [allowed]
    simp [scanSource, allowed, stays, ih]
  | @outside c rest allowed _ ih =>
    simp only [List.mem_cons, List.not_mem_nil, or_false, not_or] at allowed
    have stays : (c == '[') = false := by simp [allowed]
    simp [scanSource, allowed, stays, ih]

/-- What the reader leaves behind, where it stops at a slash without a fault, is a tail. -/
theorem tail_of_scanSource {inClass : Bool} {before : List Char} {text : Text} {stop : Cursor}
    (scanned : scanSource inClass before text = (none, stop)) {rest : Text} (slash : stop.rest = '/' :: rest) :
    ∃ source, text = source ++ stop.rest ∧ Tail inClass source := by
  fun_induction scanSource inClass before text with
  | case1 => cases scanned; cases slash
  | case2 => cases scanned
  | case3 inClass before c rest ih =>
    obtain ⟨source, rfl, tail⟩ := ih scanned
    exact ⟨_, rfl, .escape c tail⟩
  | case4 inClass before c rest _ _ stops =>
    cases scanned
    exact ⟨[], rfl, stops.2 ▸ .nil⟩
  | case5 => cases scanned
  | case6 inClass before c after alone escape goes breaks ih =>
    obtain ⟨source, rfl, tail⟩ := ih scanned
    refine ⟨c :: source, rfl, ?_⟩
    have notEscape := ne_backslash alone escape
    cases inClass with
    | true =>
      by_cases closes : c = ']'
      · subst closes
        exact .leave tail
      · have stays : (c == '[' || true && c != ']') = true := by simp [closes]
        rw [stays] at tail
        exact .inside (by simpa [closes, notEscape] using breaks) tail
    | false =>
      by_cases opens : c = '['
      · subst opens
        exact .enter tail
      · have stays : (c == '[' || false && c != ']') = false := by simp [opens]
        rw [stays] at tail
        have noSlash : c ≠ '/' := by simpa using goes
        exact .outside (by simpa [opens, notEscape, not_or] using And.intro noSlash (not_or.mp breaks)) tail

theorem scanFlags_eq_none_iff {seen before : List Char} {flags : Text} :
    (scanFlags seen before flags).1 = none ↔ Flags flags ∧ ∀ c ∈ flags, c ∉ seen := by
  fun_induction scanFlags seen before flags with
  | case1 => simp [Flags]
  | case2 seen before c rest notLetter =>
    simp only [Bool.not_eq_true'] at notLetter
    simp [Flags, notLetter]
  | case3 seen before c rest _ repeated => simp [repeated]
  | case4 seen before c rest letter fresh ih =>
    simp only [Bool.not_eq_true', Bool.not_eq_false] at letter
    rw [ih]
    simp only [Flags, List.nodup_cons, List.mem_cons, forall_eq_or_imp, not_or, letter, fresh]
    grind

theorem readAt_of_splits {text source flags : Text} (splits : Splits text source flags) :
    (readAt (.start text)).1 = .ok ⟨source, flags⟩ := by
  obtain ⟨rfl, body, valid⟩ := splits
  have opens : skipSlash? (.start ('/' :: source ++ '/' :: flags)) = some ⟨['/'], source ++ '/' :: flags⟩ := rfl
  have scanned := scanSource_of_tail (tail_iff_body.mpr body) ['/'] flags
  have closes (before : List Char) : skipSlash? ⟨before, '/' :: flags⟩ = some ⟨'/' :: before, flags⟩ := rfl
  obtain ⟨stop, ends⟩ : ∃ stop, scanFlags [] ('/' :: (source.reverse ++ ['/'])) flags = (none, stop) :=
    ⟨_, Prod.ext (scanFlags_eq_none_iff.mpr ⟨valid, by simp⟩) rfl⟩
  simp only [readAt, opens, scanned, closes, ends]
  congr 2
  · exact Cursor.upTo_of_rest rfl
  · exact Cursor.upTo_of_rest (by simp [rest_of_scanFlags ends])

theorem splits_of_reading {cursor stop : Cursor} {literal : Literal} (reading : Reading cursor (.ok literal) stop) :
    Splits cursor.rest literal.source literal.flags := by
  cases reading with
  | @whole opened closing closed _ opens scans closes ends =>
    have slash := rest_of_skipSlash? closes
    obtain ⟨source, body, tail⟩ := tail_of_scanSource scans slash
    have accepted := scanFlags_eq_none_iff.mp (congrArg Prod.fst ends)
    have source_eq : opened.upTo closing = source := Cursor.upTo_of_rest body
    have flags_eq : closed.upTo stop = closed.rest := Cursor.upTo_of_rest (by simp [rest_of_scanFlags ends])
    rw [source_eq, flags_eq]
    exact ⟨by rw [rest_of_skipSlash? opens, body, slash]; rfl, tail_iff_body.mp tail, accepted.1⟩

theorem splits_of_readAt {cursor : Cursor} {literal : Literal} (reads : (readAt cursor).1 = .ok literal) :
    Splits cursor.rest literal.source literal.flags := by
  have reading := reading_readAt cursor
  rw [reads] at reading
  exact splits_of_reading reading

theorem readFrom_fst (cursor : Cursor) :
    (readFrom cursor).1 = match (readAt cursor).1 with
      | .ok literal => .ok literal
      | .error fault => .error (.invalidLiteral cursor.text fault) := by
  unfold readFrom
  rcases readAt cursor with ⟨_ | _, _⟩ <;> rfl

theorem parse_eq (text : Text) :
    parse text = match (readAt (.start text)).1 with
      | .ok literal => .ok literal
      | .error fault => .error (.invalidLiteral text fault) :=
  readFrom_fst (.start text)

/-- Reading gives the two parts of every text that is a literal, and refuses every other text with the whole of it.
As reading is a function, no text is a literal in two ways. -/
theorem parse_exactly (text : Text) :
    (∀ source flags, parse text = .ok ⟨source, flags⟩ ↔ Splits text source flags) ∧
    ((∃ source flags, Splits text source flags) ∨ ∃ fault, parse text = .error (.invalidLiteral text fault)) := by
  rw [parse_eq]
  cases reads : (readAt (.start text)).1 with
  | ok literal =>
    have splits := splits_of_readAt reads
    refine ⟨fun source flags => ⟨?_, ?_⟩, .inl ⟨_, _, splits⟩⟩
    · intro same
      cases same
      exact splits
    · intro other
      rw [← reads, readAt_of_splits other]
  | error fault =>
    refine ⟨fun source flags => ⟨?_, ?_⟩, .inr ⟨fault, rfl⟩⟩
    · intro same
      cases same
    · intro splits
      rw [readAt_of_splits splits] at reads
      cases reads

end FluentPattern.Proofs.LiteralGrammar
