import FluentPattern.Text

/-! Places of a text told by bytes. A cursor never falls inside a character, so its offset leads back to it, and the
text between two cursors is the slice between their offsets. A slice that leaves the text or splits a character is
refused, so where one is given, the place of each of its ends is known to be good. -/

namespace FluentPattern

namespace Text

theorem utf8Size_append (first second : Text) : utf8Size (first ++ second) = utf8Size first + utf8Size second := by
  induction first with
  | nil => simp [utf8Size]
  | cons c first ih => simp [utf8Size, ih, Nat.add_assoc]

theorem utf8Size_reverse (text : Text) : utf8Size text.reverse = utf8Size text := by
  induction text with
  | nil => rfl
  | cons c text ih => simp [utf8Size_append, utf8Size, ih, Nat.add_comm]

/-- The text from one offset to another, if they are in order and characters start, or the text ends, at both. -/
def slice? (text : Text) (first last : Nat) : Option Text :=
  if first ≤ last then
    (Cursor.atOffset? text first).bind fun start =>
      (Cursor.atOffset? start.rest (last - first)).map fun stop => stop.before.reverse
  else none

/-- The text from an offset on, with another text in the place of each of some stretches, if all the slices between
the stretches are there. -/
def splice? (text replacement : Text) (first : Nat) : List (Nat × Nat) → Option Text
  | [] => text.slice? first text.utf8Size
  | (start, stop) :: later => do
    let kept ← text.slice? first start
    let rest ← text.splice? replacement stop later
    some (kept ++ replacement ++ rest)

end Text

namespace Cursor

def Reaches (first last : Cursor) : Prop :=
  ∃ read : Text, first.rest = read ++ last.rest ∧ last.before = read.reverse ++ first.before

namespace Reaches

variable {first middle last : Cursor}

theorem refl (cursor : Cursor) : cursor.Reaches cursor := ⟨[], rfl, rfl⟩

theorem trans (one : first.Reaches middle) (other : middle.Reaches last) : first.Reaches last := by
  obtain ⟨read, rest, before⟩ := one
  obtain ⟨read', rest', before'⟩ := other
  exact ⟨read ++ read', by simp [rest, rest'], by simp [before, before']⟩

theorem cons (before : List Char) (c : Char) (rest : Text) : Reaches ⟨before, c :: rest⟩ ⟨c :: before, rest⟩ :=
  ⟨[c], rfl, rfl⟩

theorem text_eq (reaches : first.Reaches last) : last.text = first.text := by
  obtain ⟨read, rest, before⟩ := reaches
  simp [text, rest, before]

theorem length_le (reaches : first.Reaches last) : last.rest.length ≤ first.rest.length := by
  obtain ⟨read, rest, -⟩ := reaches
  simp [rest]

theorem offset_le (reaches : first.Reaches last) : first.offset ≤ last.offset := by
  obtain ⟨read, -, before⟩ := reaches
  simp [offset, before, Text.utf8Size_append]

theorem rest_eq (reaches : first.Reaches last) : first.rest = first.upTo last ++ last.rest := by
  obtain ⟨read, rest, -⟩ := reaches
  rwa [upTo_of_rest rest]

end Reaches

theorem rest_of_next? {cursor after : Cursor} (found : cursor.next? = some after) :
    ∃ c, cursor.rest = c :: after.rest ∧ after.before = c :: cursor.before := by
  obtain ⟨before, _ | ⟨c, rest⟩⟩ := cursor
  · cases found
  · cases found
    exact ⟨c, rfl, rfl⟩

private theorem skip?_cons (before : List Char) (c : Char) (rest : Text) (more : Nat) :
    skip? before (c :: rest) (c.utf8Size + more) = skip? (c :: before) rest more := by
  have some : c.utf8Size + more ≠ 0 := Nat.ne_of_gt (Nat.add_pos_left c.utf8Size_pos more)
  rw [skip?, if_pos (Nat.le_add_right ..), Nat.add_sub_cancel_left]
  exact some

private theorem skip?_append (before : List Char) (read rest : Text) :
    skip? before (read ++ rest) (Text.utf8Size read) = some ⟨read.reverse ++ before, rest⟩ := by
  induction read generalizing before with
  | nil => simp [Text.utf8Size, skip?]
  | cons c read ih =>
    rw [List.cons_append, Text.utf8Size, skip?_cons, ih]
    simp

theorem offset_cons (c : Char) (before : List Char) (rest later : Text) :
    offset ⟨c :: before, later⟩ = offset ⟨before, rest⟩ + c.utf8Size := Nat.add_comm ..

theorem text_cons (c : Char) (before : List Char) (rest : Text) : text ⟨c :: before, rest⟩ = text ⟨before, c :: rest⟩ :=
  (Reaches.cons before c rest).text_eq

theorem atOffset?_offset (cursor : Cursor) : atOffset? cursor.text cursor.offset = some cursor := by
  have reached := skip?_append [] cursor.before.reverse cursor.rest
  rwa [Text.utf8Size_reverse, List.reverse_reverse, List.append_nil] at reached

theorem slice?_offset {first last : Cursor} (reaches : first.Reaches last) :
    first.text.slice? first.offset last.offset = some (first.upTo last) := by
  obtain ⟨read, rest, before⟩ := reaches
  have between : last.offset - first.offset = Text.utf8Size read := by
    simp [offset, before, Text.utf8Size_append, Text.utf8Size_reverse]
  have order := Reaches.offset_le ⟨read, rest, before⟩
  have reached := skip?_append [] read last.rest
  rw [Text.slice?, if_pos order, atOffset?_offset, Option.bind_some, between, rest, atOffset?, reached,
    upTo_of_rest rest]
  simp

theorem offset_le_utf8Size (cursor : Cursor) : cursor.offset ≤ cursor.text.utf8Size := by
  simp [offset, text, Text.utf8Size_append, Text.utf8Size_reverse]

theorem slice?_utf8Size (cursor : Cursor) :
    cursor.text.slice? cursor.offset cursor.text.utf8Size = some cursor.rest := by
  have reaches : cursor.Reaches ⟨cursor.rest.reverse ++ cursor.before, []⟩ := ⟨cursor.rest, by simp, rfl⟩
  have whole := slice?_offset reaches
  have last : offset ⟨cursor.rest.reverse ++ cursor.before, []⟩ = cursor.text.utf8Size := by
    simp [offset, text, Text.utf8Size_append, Text.utf8Size_reverse, Nat.add_comm]
  rwa [last, upTo_of_rest (List.append_nil _).symm] at whole

end Cursor
end FluentPattern
