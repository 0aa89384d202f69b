import FluentPattern.Error
import FluentPattern.Proofs.Offsets

/-! The ways a reader of literals can go. Whatever comes of a reading, it ends at a place that is reached by reading on,
and only one that finds no slash to start with ends where it began. What stands before a reader is never looked at, so a
reading is moved with all its places when something is put in front. -/

namespace FluentPattern

namespace Cursor

/-- The same place with more text in front; the characters of it are given from the nearest on. -/
def behind (earlier : List Char) (cursor : Cursor) : Cursor := ⟨cursor.before ++ earlier, cursor.rest⟩

theorem offset_behind (earlier : List Char) (cursor : Cursor) :
    (cursor.behind earlier).offset = cursor.offset + Text.utf8Size earlier := Text.utf8Size_append ..

end Cursor

namespace Literal

theorem scanSource_cons {c : Char} (plain : c ≠ '\\') (inClass : Bool) (before : List Char) (rest : Text) :
    scanSource inClass before (c :: rest) =
      if c = '/' ∧ inClass = false then (none, ⟨before, c :: rest⟩)
      else if c = '\n' ∨ c = '\r' then (some .lineBreak, ⟨before, c :: rest⟩)
      else scanSource (c == '[' || (inClass && c != ']')) (c :: before) rest := by
  rw [scanSource]
  · exact fun escape _ => plain escape
  · exact fun _ _ escape _ => plain escape

theorem ne_backslash {c : Char} {rest : Text} (alone : c = '\\' → rest = [] → False)
    (escape : ∀ d later, c = '\\' → rest = d :: later → False) : c ≠ '\\' := by
  intro same
  cases rest with
  | nil => exact alone same rfl
  | cons d later => exact escape d later same rfl

theorem fault_of_scanSource {inClass : Bool} {before : List Char} {text : Text} {fault : Fault} {stop : Cursor}
    (scanned : scanSource inClass before text = (some fault, stop)) : fault ∈ [.trailingBackslash, .lineBreak] := by
  fun_induction scanSource inClass before text with
  | case1 | case4 => cases scanned
  | case2 | case5 => cases scanned; decide
  | case3 _ _ _ _ ih | case6 _ _ _ _ _ _ _ _ ih => exact ih scanned

theorem fault_of_scanFlags {seen before : List Char} {flags : Text} {fault : Fault} {stop : Cursor}
    (scanned : scanFlags seen before flags = (some fault, stop)) : fault ∈ [.flagNotLetter, .repeatedFlag] := by
  fun_induction scanFlags seen before flags with
  | case1 => cases scanned
  | case2 | case3 => cases scanned; decide
  | case4 _ _ _ _ _ _ ih => exact ih scanned

theorem rest_of_scanFlags {seen before : List Char} {flags : Text} {stop : Cursor}
    (scanned : scanFlags seen before flags = (none, stop)) : stop.rest = [] := by
  fun_induction scanFlags seen before flags with
  | case1 => cases scanned; rfl
  | case2 => cases scanned
  | case3 => cases scanned
  | case4 _ _ _ _ _ _ ih => exact ih scanned

theorem rest_of_skipSlash? {cursor after : Cursor} (skips : skipSlash? cursor = some after) :
    cursor.rest = '/' :: after.rest := by
  unfold skipSlash? at skips
  split at skips
  next rest slash => cases skips; exact slash
  next => cases skips

/-- The ways a reading of a literal can go, each with what comes out of it and where it stops. -/
inductive Reading (cursor : Cursor) : Except Fault Literal → Cursor → Prop where
  | unopened (opens : skipSlash? cursor = none) : Reading cursor (.error .noOpening) cursor
  | sourceFault {opened fault stop} (opens : skipSlash? cursor = some opened)
    (scans : scanSource false opened.before opened.rest = (some fault, stop)) : Reading cursor (.error fault) stop
  | unclosed {opened closing} (opens : skipSlash? cursor = some opened)
    (scans : scanSource false opened.before opened.rest = (none, closing)) (closes : skipSlash? closing = none) :
    Reading cursor (.error .noClosing) closing
  | flagFault {opened closing closed fault stop} (opens : skipSlash? cursor = some opened)
    (scans : scanSource false opened.before opened.rest = (none, closing)) (closes : skipSlash? closing = some closed)
    (ends : scanFlags [] closed.before closed.rest = (some fault, stop)) : Reading cursor (.error fault) stop
  | whole {opened closing closed stop} (opens : skipSlash? cursor = some opened)
    (scans : scanSource false opened.before opened.rest = (none, closing)) (closes : skipSlash? closing = some closed)
    (ends : scanFlags [] closed.before closed.rest = (none, stop)) :
    Reading cursor (.ok ⟨opened.upTo closing, closed.upTo stop⟩) stop

theorem reading_readAt (cursor : Cursor) : Reading cursor (readAt cursor).1 (readAt cursor).2 := by
  unfold readAt
  split
  next opens => exact .unopened opens
  next opened opens =>
    split
    next fault stop scans => exact .sourceFault opens scans
    next closing scans =>
      split
      next closes => exact .unclosed opens scans closes
      next closed closes =>
        split
        next fault stop ends => exact .flagFault opens scans closes ends
        next stop ends => exact .whole opens scans closes ends

theorem Reading.eq {cursor stop : Cursor} {outcome : Except Fault Literal} (reading : Reading cursor outcome stop) :
    readAt cursor = (outcome, stop) := by
  cases reading with
  | unopened opens => simp only [readAt, opens]
  | sourceFault opens scans => simp only [readAt, opens, scans]
  | unclosed opens scans closes => simp only [readAt, opens, scans, closes]
  | flagFault opens scans closes ends => simp only [readAt, opens, scans, closes, ends]
  | whole opens scans closes ends => simp only [readAt, opens, scans, closes, ends]

section Behind

variable (earlier before : List Char)

theorem scanSource_behind (inClass : Bool) (text : Text) :
    scanSource inClass (before ++ earlier) text =
      ((scanSource inClass before text).1, (scanSource inClass before text).2.behind earlier) := by
  fun_induction scanSource inClass before text with
  | case1 | case2 => rfl
  | case3 inClass before c rest ih => exact ih
  | case4 inClass before c rest _ _ closes =>
    rw [scanSource_cons (by rw [closes.1]; decide), if_pos closes]
    rfl
  | case5 inClass before c rest _ _ goes breaks =>
    rw [scanSource_cons (by rintro rfl; simp at breaks), if_neg goes, if_pos breaks]
    rfl
  | case6 inClass before c rest alone escape goes stays ih =>
    rw [scanSource_cons (ne_backslash alone escape), if_neg goes, if_neg stays]
    exact ih

theorem scanFlags_behind (seen : List Char) (text : Text) :
    scanFlags seen (before ++ earlier) text =
      ((scanFlags seen before text).1, (scanFlags seen before text).2.behind earlier) := by
  fun_induction scanFlags seen before text with
  | case1 => rfl
  | case2 seen before c rest notLetter =>
    rw [scanFlags, if_pos notLetter]
    rfl
  | case3 seen before c rest letter repeated =>
    rw [scanFlags, if_neg letter, if_pos repeated]
    rfl
  | case4 seen before c rest letter fresh ih =>
    rw [scanFlags, if_neg letter, if_neg fresh]
    exact ih

theorem skipSlash?_eq (cursor : Cursor) :
    skipSlash? cursor =
      if cursor.rest.head? = some '/' then some ⟨'/' :: cursor.before, cursor.rest.tail⟩ else none := by
  unfold skipSlash?
  split
  next rest slash => rw [slash, List.head?_cons, if_pos rfl, List.tail_cons]
  next other =>
    refine (if_neg fun head => ?_).symm
    obtain ⟨rest, slash⟩ := List.head?_eq_some_iff.mp head
    exact other rest slash

theorem skipSlash?_behind (cursor : Cursor) :
    skipSlash? (cursor.behind earlier) = (skipSlash? cursor).map (·.behind earlier) := by
  rw [skipSlash?_eq, skipSlash?_eq, apply_ite (Option.map _)]
  rfl

theorem Reading.behind {cursor stop : Cursor} {outcome : Except Fault Literal} (reading : Reading cursor outcome stop) :
    Reading (cursor.behind earlier) outcome (stop.behind earlier) := by
  have blocked {cursor : Cursor} (skips : skipSlash? cursor = none) : skipSlash? (cursor.behind earlier) = none := by
    rw [skipSlash?_behind, skips, Option.map_none]
  have skipped {cursor after : Cursor} (skips : skipSlash? cursor = some after) :
      skipSlash? (cursor.behind earlier) = some (after.behind earlier) := by rw [skipSlash?_behind, skips, Option.map_some]
  have scanned {opened stop : Cursor} {fault : Option Fault}
      (scans : scanSource false opened.before opened.rest = (fault, stop)) :
      scanSource false (opened.before ++ earlier) opened.rest = (fault, stop.behind earlier) := by
    rw [scanSource_behind, scans]
  have ended {closed stop : Cursor} {fault : Option Fault} (ends : scanFlags [] closed.before closed.rest = (fault, stop)) :
      scanFlags [] (closed.before ++ earlier) closed.rest = (fault, stop.behind earlier) := by
    rw [scanFlags_behind, ends]
  cases reading with
  | unopened opens => exact .unopened (blocked opens)
  | sourceFault opens scans => exact .sourceFault (skipped opens) (scanned scans)
  | unclosed opens scans closes => exact .unclosed (skipped opens) (scanned scans) (blocked closes)
  | flagFault opens scans closes ends => exact .flagFault (skipped opens) (scanned scans) (skipped closes) (ended ends)
  | whole opens scans closes ends => exact .whole (skipped opens) (scanned scans) (skipped closes) (ended ends)

/-- What stands before a reader makes no difference to what it reads and how far it goes. -/
theorem readAt_behind (cursor : Cursor) :
    readAt (cursor.behind earlier) = ((readAt cursor).1, (readAt cursor).2.behind earlier) :=
  ((reading_readAt cursor).behind earlier).eq

end Behind

section Readings

variable {cursor stop : Cursor} {outcome : Except Fault Literal}

theorem reaches_scanSource (inClass : Bool) (before : List Char) (text : Text) :
    Cursor.Reaches ⟨before, text⟩ (scanSource inClass before text).2 := by
  fun_induction scanSource inClass before text with
  | case1 => exact .refl _
  | case2 inClass before => exact .cons before '\\' []
  | case3 inClass before c rest ih => exact ((Cursor.Reaches.cons ..).trans (.cons ..)).trans ih
  | case4 | case5 => exact .refl _
  | case6 inClass before c rest _ _ _ _ ih => exact (Cursor.Reaches.cons ..).trans ih

theorem reaches_scanFlags (seen before : List Char) (text : Text) :
    Cursor.Reaches ⟨before, text⟩ (scanFlags seen before text).2 := by
  fun_induction scanFlags seen before text with
  | case1 => exact .refl _
  | case2 | case3 => exact .cons ..
  | case4 seen before c rest _ _ ih => exact (Cursor.Reaches.cons ..).trans ih

theorem reaches_of_scans {opened closing : Cursor} {fault : Option Fault}
    (scans : scanSource false opened.before opened.rest = (fault, closing)) : opened.Reaches closing := by
  have reaches := reaches_scanSource false opened.before opened.rest
  rwa [scans] at reaches

theorem reaches_of_ends {closed stop : Cursor} {fault : Option Fault}
    (ends : scanFlags [] closed.before closed.rest = (fault, stop)) : closed.Reaches stop := by
  have reaches := reaches_scanFlags [] closed.before closed.rest
  rwa [ends] at reaches

theorem head?_of_skipSlash?_eq_none (skips : skipSlash? cursor = none) : cursor.rest.head? ≠ some '/' := by
  rw [skipSlash?_eq, ite_eq_right_iff] at skips
  exact nofun ∘ skips

theorem of_skipSlash? {after : Cursor} (skips : skipSlash? cursor = some after) :
    cursor.rest.head? = some '/' ∧ cursor.Reaches after ∧ after.offset = cursor.offset + '/'.utf8Size := by
  obtain ⟨before, rest⟩ := cursor
  rw [skipSlash?_eq] at skips
  split at skips
  next head =>
    cases skips
    obtain ⟨later, rfl⟩ := List.head?_eq_some_iff.mp head
    exact ⟨rfl, .cons .., Cursor.offset_cons ..⟩
  next => cases skips

theorem Reading.stays_or_moves (reading : Reading cursor outcome stop) :
    outcome = .error .noOpening ∧ stop = cursor ∨
      outcome ≠ .error .noOpening ∧ cursor.Reaches stop ∧ cursor.offset < stop.offset := by
  have moves {opened : Cursor} (opens : skipSlash? cursor = some opened) (onward : opened.Reaches stop) :
      cursor.Reaches stop ∧ cursor.offset < stop.offset := by
    obtain ⟨-, opening, size⟩ := of_skipSlash? opens
    refine ⟨opening.trans onward, Nat.lt_of_lt_of_le ?_ onward.offset_le⟩
    rw [size]
    exact Nat.lt_add_of_pos_right ('/' : Char).utf8Size_pos
  cases reading with
  | unopened opens => exact .inl ⟨rfl, rfl⟩
  | @sourceFault opened fault stop opens scans =>
    refine .inr ⟨?_, moves opens (reaches_of_scans scans)⟩
    rintro ⟨⟩
    simpa using fault_of_scanSource scans
  | unclosed opens scans closes => exact .inr ⟨nofun, moves opens (reaches_of_scans scans)⟩
  | flagFault opens scans closes ends =>
    obtain ⟨-, closing, -⟩ := of_skipSlash? closes
    refine .inr ⟨?_, moves opens ((reaches_of_scans scans).trans (closing.trans (reaches_of_ends ends)))⟩
    rintro ⟨⟩
    simpa using fault_of_scanFlags ends
  | whole opens scans closes ends =>
    obtain ⟨-, closing, -⟩ := of_skipSlash? closes
    exact .inr ⟨nofun, moves opens ((reaches_of_scans scans).trans (closing.trans (reaches_of_ends ends)))⟩

theorem Reading.rest_of_ok {literal : Literal} (reading : Reading cursor (.ok literal) stop) : stop.rest = [] := by
  cases reading with
  | whole opens scans closes ends => exact rest_of_scanFlags ends

theorem readFrom_eq (cursor : Cursor) :
    readFrom cursor = ((readAt cursor).1.mapError (.invalidLiteral cursor.text), (readAt cursor).2) := by
  unfold readFrom
  rcases readAt cursor with ⟨_ | _, _⟩ <;> rfl

end Readings

end Literal
end FluentPattern
