import FluentPattern.Proofs.LiteralGrammar

/-! Positions of a reader. A reader is called again and again on one text, and each reading goes on from where the one
before it stopped, after a fault too. Places are offsets for the caller: a reader that knows no more than its offset, and
takes a slice of the text wherever it looks, is told beside the one with a cursor and goes the same way from every
boundary between two characters, so none of its slices is refused. -/

namespace FluentPattern

namespace Text

/-- The character at an offset; there is none at the end. The slice from the offset on has to be there. -/
def peek? (text : Text) (offset : Nat) : Option (Option Char) := (text.slice? offset text.utf8Size).map List.head?

theorem peek?_offset (cursor : Cursor) : cursor.text.peek? cursor.offset = some cursor.rest.head? := by
  rw [peek?, Cursor.slice?_utf8Size, Option.map_some]

theorem lt_of_peek? {text : Text} {offset : Nat} {c : Char} (seen : text.peek? offset = some (some c)) :
    offset < text.utf8Size := by
  obtain ⟨rest, slice, head⟩ := Option.map_eq_some_iff.mp seen
  unfold slice? at slice
  split at slice
  next within =>
    refine Nat.lt_of_le_of_ne within fun last => ?_
    obtain ⟨start, -, sliced⟩ := Option.bind_eq_some_iff.mp slice
    rw [last, Nat.sub_self] at sliced
    obtain rfl : [] = rest := by simpa [Cursor.atOffset?, Cursor.skip?] using sliced
    cases head
  next => cases slice

end Text

namespace Literal

def sourceEnd? (text : Text) (inClass : Bool) (offset : Nat) : Option (Option Fault × Nat) :=
  match _seen : text.peek? offset with
  | none => none
  | some none => some (none, offset)
  | some (some c) =>
    if c = '\\' then
      match text.peek? (offset + c.utf8Size) with
      | none => none
      | some none => some (some .trailingBackslash, offset + c.utf8Size)
      | some (some d) => sourceEnd? text inClass (offset + c.utf8Size + d.utf8Size)
    else if c = '/' ∧ inClass = false then some (none, offset)
    else if c = '\n' ∨ c = '\r' then some (some .lineBreak, offset)
    else sourceEnd? text (c == '[' || (inClass && c != ']')) (offset + c.utf8Size)
termination_by text.utf8Size - offset
decreasing_by
  all_goals
    have within := Text.lt_of_peek? _seen
    have size := c.utf8Size_pos
    omega

def flagsEnd? (text : Text) (seen : List Char) (offset : Nat) : Option (Option Fault × Nat) :=
  match _seen : text.peek? offset with
  | none => none
  | some none => some (none, offset)
  | some (some c) =>
    if !c.isAlpha then some (some .flagNotLetter, offset + c.utf8Size)
    else if c ∈ seen then some (some .repeatedFlag, offset + c.utf8Size)
    else flagsEnd? text (c :: seen) (offset + c.utf8Size)
termination_by text.utf8Size - offset
decreasing_by
  have within := Text.lt_of_peek? _seen
  have size := c.utf8Size_pos
  omega

def readAtOffset? (text : Text) (offset : Nat) : Option (Except Fault Literal × Nat) := do
  if (← text.peek? offset) ≠ some '/' then
    return (.error .noOpening, offset)
  let opened := offset + '/'.utf8Size
  match ← sourceEnd? text false opened with
  | (some fault, stop) => return (.error fault, stop)
  | (none, closing) =>
    let source ← text.slice? opened closing
    if (← text.peek? closing) ≠ some '/' then
      return (.error .noClosing, closing)
    let closed := closing + '/'.utf8Size
    match ← flagsEnd? text [] closed with
    | (some fault, stop) => return (.error fault, stop)
    | (none, stop) =>
      let flags ← text.slice? closed stop
      return (.ok ⟨source, flags⟩, stop)

section Offsets

variable {text : Text} {offset : Nat}

theorem sourceEnd?_of_end (look : text.peek? offset = some none) (inClass : Bool) :
    sourceEnd? text inClass offset = some (none, offset) := by
  rw [sourceEnd?]
  split <;> simp_all

theorem sourceEnd?_of_char {c : Char} (look : text.peek? offset = some (some c)) (inClass : Bool) :
    sourceEnd? text inClass offset =
      if c = '\\' then
        match text.peek? (offset + c.utf8Size) with
        | none => none
        | some none => some (some .trailingBackslash, offset + c.utf8Size)
        | some (some d) => sourceEnd? text inClass (offset + c.utf8Size + d.utf8Size)
      else if c = '/' ∧ inClass = false then some (none, offset)
      else if c = '\n' ∨ c = '\r' then some (some .lineBreak, offset)
      else sourceEnd? text (c == '[' || (inClass && c != ']')) (offset + c.utf8Size) := by
  rw [sourceEnd?]
  split
  next refused => cases look.symm.trans refused
  next ends => cases look.symm.trans ends
  next d seen =>
    cases look.symm.trans seen
    rfl

theorem sourceEnd?_offset (inClass : Bool) (before : List Char) (rest : Text) :
    sourceEnd? (Cursor.text ⟨before, rest⟩) inClass (Cursor.offset ⟨before, rest⟩) =
      some ((scanSource inClass before rest).1, (scanSource inClass before rest).2.offset) := by
  have look (before : List Char) (rest : Text) :
      (Cursor.text ⟨before, rest⟩).peek? (Cursor.offset ⟨before, rest⟩) = some rest.head? := Text.peek?_offset ⟨before, rest⟩
  -- Both go by the same character, which the offset finds again at every place that the cursor comes to.
  fun_induction scanSource inClass before rest with
  | case1 inClass before => exact sourceEnd?_of_end (look before []) inClass
  | case2 inClass before =>
    rw [sourceEnd?_of_char (look before ['\\']), if_pos rfl, ← Cursor.offset_cons _ _ _ [], ← Cursor.text_cons, look]
    rfl
  | case3 inClass before c rest ih =>
    rw [sourceEnd?_of_char (look before _), if_pos rfl, ← Cursor.offset_cons _ _ _ (c :: rest), ← Cursor.text_cons, look]
    simp only [List.head?_cons]
    rw [← Cursor.offset_cons _ _ _ rest, ← Cursor.text_cons, ih]
  | case4 inClass before c rest _ _ closes =>
    rw [sourceEnd?_of_char (look before _), if_neg (by rw [closes.1]; decide), if_pos closes]
  | case5 inClass before c rest _ _ goes breaks =>
    rw [sourceEnd?_of_char (look before _), if_neg (by rintro rfl; simp at breaks), if_neg goes, if_pos breaks]
  | case6 inClass before c rest alone escape goes stays ih =>
    rw [sourceEnd?_of_char (look before _), if_neg (ne_backslash alone escape), if_neg goes, if_neg stays,
      ← Cursor.offset_cons _ _ _ rest, ← Cursor.text_cons, ih]

theorem flagsEnd?_of_char {c : Char} (look : text.peek? offset = some (some c)) (seen : List Char) :
    flagsEnd? text seen offset =
      if !c.isAlpha then some (some .flagNotLetter, offset + c.utf8Size)
      else if c ∈ seen then some (some .repeatedFlag, offset + c.utf8Size)
      else flagsEnd? text (c :: seen) (offset + c.utf8Size) := by
  rw [flagsEnd?]
  split
  next refused => cases look.symm.trans refused
  next ends => cases look.symm.trans ends
  next d same =>
    cases look.symm.trans same
    rfl

theorem flagsEnd?_offset (seen before : List Char) (rest : Text) :
    flagsEnd? (Cursor.text ⟨before, rest⟩) seen (Cursor.offset ⟨before, rest⟩) =
      some ((scanFlags seen before rest).1, (scanFlags seen before rest).2.offset) := by
  have look (before : List Char) (rest : Text) :
      (Cursor.text ⟨before, rest⟩).peek? (Cursor.offset ⟨before, rest⟩) = some rest.head? := Text.peek?_offset ⟨before, rest⟩
  fun_induction scanFlags seen before rest with
  | case1 seen before =>
    rw [flagsEnd?]
    split <;> simp_all
  | case2 seen before c rest notLetter =>
    rw [flagsEnd?_of_char (look before _), if_pos notLetter, Cursor.offset_cons]
  | case3 seen before c rest letter repeated =>
    rw [flagsEnd?_of_char (look before _), if_neg letter, if_pos repeated, Cursor.offset_cons]
  | case4 seen before c rest letter fresh ih =>
    rw [flagsEnd?_of_char (look before _), if_neg letter, if_neg fresh, ← Cursor.offset_cons _ _ _ rest, ← Cursor.text_cons,
      ih]

end Offsets

section Readings

variable {cursor stop : Cursor} {outcome : Except Fault Literal}

/-- All slices that a reader takes with an offset between two characters are there, and it does what a reader with a
cursor does. -/
theorem Reading.readAtOffset?_eq (reading : Reading cursor outcome stop) :
    readAtOffset? cursor.text cursor.offset = some (outcome, stop.offset) := by
  have look {place : Cursor} (reaches : cursor.Reaches place) :
      cursor.text.peek? place.offset = some place.rest.head? := reaches.text_eq ▸ Text.peek?_offset place
  have sourceEnds {opened closing : Cursor} {fault : Option Fault} (reaches : cursor.Reaches opened)
      (scans : scanSource false opened.before opened.rest = (fault, closing)) :
      sourceEnd? cursor.text false opened.offset = some (fault, closing.offset) := by
    have scanned := sourceEnd?_offset false opened.before opened.rest
    rw [scans] at scanned
    exact reaches.text_eq ▸ scanned
  have flagsEnd {closed stop : Cursor} {fault : Option Fault} (reaches : cursor.Reaches closed)
      (ends : scanFlags [] closed.before closed.rest = (fault, stop)) :
      flagsEnd? cursor.text [] closed.offset = some (fault, stop.offset) := by
    have ended := flagsEnd?_offset [] closed.before closed.rest
    rw [ends] at ended
    exact reaches.text_eq ▸ ended
  have sliced {first last : Cursor} (reaches : cursor.Reaches first) (onward : first.Reaches last) :
      cursor.text.slice? first.offset last.offset = some (first.upTo last) :=
    reaches.text_eq ▸ Cursor.slice?_offset onward
  cases reading with
  | unopened opens => simp [readAtOffset?, look (.refl _), head?_of_skipSlash?_eq_none opens]
  | sourceFault opens scans =>
    obtain ⟨slash, opening, opened⟩ := of_skipSlash? opens
    simp [readAtOffset?, look (.refl _), slash, ← opened, sourceEnds opening scans]
  | unclosed opens scans closes =>
    obtain ⟨slash, opening, opened⟩ := of_skipSlash? opens
    have source := reaches_of_scans scans
    simp [readAtOffset?, look (.refl _), slash, ← opened, sourceEnds opening scans, sliced opening source,
      look (opening.trans source), head?_of_skipSlash?_eq_none closes]
  | flagFault opens scans closes ends =>
    obtain ⟨slash, opening, opened⟩ := of_skipSlash? opens
    obtain ⟨slash', closing, closed⟩ := of_skipSlash? closes
    have source := reaches_of_scans scans
    have body := opening.trans source
    simp [readAtOffset?, look (.refl _), slash, ← opened, sourceEnds opening scans, sliced opening source, look body,
      slash', ← closed, flagsEnd (body.trans closing) ends]
  | whole opens scans closes ends =>
    obtain ⟨slash, opening, opened⟩ := of_skipSlash? opens
    obtain ⟨slash', closing, closed⟩ := of_skipSlash? closes
    have source := reaches_of_scans scans
    have body := opening.trans source
    simp [readAtOffset?, look (.refl _), slash, ← opened, sourceEnds opening scans, sliced opening source, look body,
      slash', ← closed, flagsEnd (body.trans closing) ends, sliced (body.trans closing) (reaches_of_ends ends)]

end Readings

end Literal

namespace Proofs.Positions
open Literal LiteralGrammar

def IsBoundary (text : Text) (offset : Nat) : Prop :=
  ∃ earlier later, text = earlier ++ later ∧ Text.utf8Size earlier = offset

def after (start : Cursor) : Nat → Cursor
  | 0 => start
  | calls + 1 => (readFrom (after start calls)).2

/-- What is promised of a reading of a text from a place. -/
structure Moves (text : Text) (here : Cursor) : Prop where
  boundary : IsBoundary text here.offset
  within : here.offset ≤ text.utf8Size
  /-- No slice that a reader takes with the offset is refused. -/
  sliced : readAtOffset? text here.offset = some ((readAt here).1, (readFrom here).2.offset)
  onward : here.offset ≤ (readFrom here).2.offset
  stays : (readFrom here).2.offset = here.offset ↔ (readFrom here).1 = .error (.invalidLiteral text .noOpening)
  ends : ∀ literal, (readFrom here).1 = .ok literal → (readFrom here).2.offset = text.utf8Size
  /-- Where the same text is left of another one, the outcome is the same but for the text that a fault quotes, and the
  reader goes equally far. -/
  alone : ∀ other : Cursor, other.rest = here.rest →
    (readFrom other).1 = (readAt here).1.mapError (.invalidLiteral other.text) ∧
      (readFrom other).2.offset - other.offset = (readFrom here).2.offset - here.offset

theorem isBoundary_offset (cursor : Cursor) : IsBoundary cursor.text cursor.offset :=
  ⟨cursor.before.reverse, cursor.rest, rfl, Text.utf8Size_reverse _⟩

theorem IsBoundary.exists_cursor {text : Text} {offset : Nat} (boundary : IsBoundary text offset) :
    ∃ cursor : Cursor, cursor.text = text ∧ cursor.offset = offset := by
  obtain ⟨earlier, later, rfl, rfl⟩ := boundary
  exact ⟨⟨earlier.reverse, later⟩, by simp [Cursor.text], Text.utf8Size_reverse _⟩

section Calls

variable (here start : Cursor)

theorem readFrom_error_iff (fault : Fault) :
    (readFrom here).1 = .error (.invalidLiteral here.text fault) ↔ (readAt here).1 = .error fault := by
  rw [readFrom_fst]
  cases (readAt here).1 <;> simp

theorem readFrom_ok_iff (literal : Literal) : (readFrom here).1 = .ok literal ↔ (readAt here).1 = .ok literal := by
  rw [readFrom_fst]
  cases (readAt here).1 <;> simp

theorem reaches_readFrom : here.Reaches (readFrom here).2 := by
  rw [readFrom_eq]
  obtain ⟨-, stays⟩ | ⟨-, onward, -⟩ := (reading_readAt here).stays_or_moves
  · rw [stays]
    exact .refl here
  · exact onward

/-- A reading goes from its place as a reading of the rest alone goes from the start. -/
theorem readAt_of_rest :
    readAt here = ((readAt (.start here.rest)).1, (readAt (.start here.rest)).2.behind here.before) :=
  readAt_behind here.before (.start here.rest)

theorem distance_readFrom : (readFrom here).2.offset - here.offset = (readAt (.start here.rest)).2.offset := by
  rw [readFrom_eq, readAt_of_rest here, Cursor.offset_behind]
  exact Nat.add_sub_cancel ..

theorem moves_readFrom : Moves here.text here where
  boundary := isBoundary_offset here
  within := here.offset_le_utf8Size
  sliced := by
    rw [readFrom_eq]
    exact (reading_readAt here).readAtOffset?_eq
  onward := (reaches_readFrom here).offset_le
  stays := by
    rw [readFrom_error_iff, readFrom_eq]
    obtain ⟨unopened, stays⟩ | ⟨opened, -, further⟩ := (reading_readAt here).stays_or_moves
    · simp [unopened, stays]
    · exact iff_of_false (Nat.ne_of_gt further) opened
  ends literal reads := by
    have reading := reading_readAt here
    rw [(readFrom_ok_iff here literal).mp reads] at reading
    have last : (readFrom here).2.rest = [] := by
      rw [readFrom_eq]
      exact reading.rest_of_ok
    rw [← (reaches_readFrom here).text_eq]
    simp [Cursor.text, Cursor.offset, last, Text.utf8Size_reverse]
  alone other same := by
    constructor
    · rw [readFrom_eq, readAt_of_rest other, readAt_of_rest here, same]
    · rw [distance_readFrom, distance_readFrom, same]

theorem reaches_after (calls : Nat) : start.Reaches (after start calls) := by
  induction calls with
  | zero => exact .refl start
  | succ calls ih => exact ih.trans (reaches_readFrom _)

theorem after_eq_of_unopened {calls : Nat} (unopened : (readAt (after start calls)).1 = .error .noOpening) (later : Nat) :
    after start (calls + later) = after start calls := by
  induction later with
  | zero => rfl
  | succ later ih =>
    rw [← Nat.add_assoc, after, ih, readFrom_eq]
    obtain ⟨-, stays⟩ | ⟨opened, -⟩ := (reading_readAt (after start calls)).stays_or_moves
    · exact stays
    · exact absurd unopened opened

end Calls

/-- A reader may start at every offset between two characters, and every one of its readings, whatever came of those
before it, keeps to the text. -/
theorem moves_at_every_call {text : Text} {offset : Nat} (boundary : IsBoundary text offset) :
    ∃ start, Cursor.atOffset? text offset = some start ∧ start.text = text ∧ start.offset = offset ∧
      ∀ calls, Moves text (after start calls) ∧
        ((readFrom (after start calls)).1 = .error (.invalidLiteral text .noOpening) →
          ∀ later, calls ≤ later →
            (readFrom (after start later)).1 = .error (.invalidLiteral text .noOpening)) := by
  obtain ⟨start, rfl, rfl⟩ := boundary.exists_cursor
  refine ⟨start, Cursor.atOffset?_offset start, rfl, rfl, fun calls => ?_⟩
  have same : (after start calls).text = start.text := (reaches_after start calls).text_eq
  constructor
  · rw [← same]
    exact moves_readFrom _
  · intro unopened later order
    obtain ⟨more, rfl⟩ := Nat.exists_eq_add_of_le order
    rw [after_eq_of_unopened start ((readFrom_error_iff _ _).mp (same ▸ unopened)) more, unopened]

/-- The first reading ends behind a letter that is no flag and the second one at the end of the text, so there is nothing
left for the others. -/
theorem moves_at_every_call_of_accents :
    let text : Text := ['é', '/', '[', '/', ']', '/', 'g', 'é', '/', '\\']
    IsBoundary text 2 ∧ ∃ start, Cursor.atOffset? text 2 = some start ∧
      (readFrom start).1 = .error (.invalidLiteral text .flagNotLetter) ∧ (after start 1).offset = 10 ∧
      (readFrom (after start 1)).1 = .error (.invalidLiteral text .trailingBackslash) ∧
      (∀ calls, Moves text (after start calls)) ∧
      ∀ later, 2 ≤ later → (readFrom (after start later)).1 = .error (.invalidLiteral text .noOpening) := by
  intro text
  have boundary : IsBoundary text 2 := ⟨['é'], text.tail, rfl, by decide⟩
  obtain ⟨start, place, -, -, readings⟩ := moves_at_every_call boundary
  obtain rfl : ⟨['é'], text.tail⟩ = start := Option.some.inj ((by decide : some _ = Cursor.atOffset? text 2).trans place)
  exact ⟨boundary, _, place, rfl, rfl, rfl, fun calls => (readings calls).1, (readings 2).2 rfl⟩

end Proofs.Positions
end FluentPattern
