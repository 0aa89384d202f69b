import FluentPattern.Node.Render
import FluentPattern.Proofs.Compiling
import FluentPattern.Text.Escape

/-! Classes that nothing closes. A class without members is not empty for a reader: the bracket that should close it is
its first member. Whatever comes then belongs to the class, and every bracket in it that closes one has been opened in
it as well, so the class is open to the end. -/

namespace FluentPattern.Proofs.OpenClasses
open Regex

variable {dialect : Dialect} {depth : Nat} {c : Char} {rest : Text} {reading : ClassReading}

/-- Whether a text closes only brackets that it opens, and at most `depth` others. -/
def contained : (depth : Nat) → Text → Bool
  | depth, '\\' :: _ :: rest => contained depth rest
  | depth, '[' :: rest => contained (depth + 1) rest
  | 0, ']' :: _ => false
  | depth + 1, ']' :: rest => contained depth rest
  | depth, _ :: rest => contained depth rest
  | _, [] => true

theorem contained_plain (plain : c ∉ ['\\', '[', ']']) (depth : Nat) (rest : Text) :
    contained depth (c :: rest) = contained depth rest := by
  simp only [List.mem_cons, List.not_mem_nil, or_false, not_or] at plain
  cases depth <;> simp [contained, plain]

theorem contained_escape (depth : Nat) (c : Char) (rest : Text) :
    contained depth ('\\' :: c :: rest) = contained depth rest := by
  cases depth <;> rfl

theorem contained_open (depth : Nat) (rest : Text) : contained depth ('[' :: rest) = contained (depth + 1) rest := by
  cases depth <;> rfl

theorem contained_mono {more : Nat} (le : depth ≤ more) {text : Text} (inside : contained depth text) :
    contained more text := by
  fun_induction contained depth text generalizing more with
  | case1 depth c rest ih => exact contained_escape more c rest ▸ ih le inside
  | case2 depth rest ih => exact contained_open more rest ▸ ih (Nat.succ_le_succ le) inside
  | case3 => cases inside
  | case4 depth rest ih =>
    obtain ⟨more, rfl⟩ := Nat.exists_eq_add_of_lt le
    rw [contained]
    exact ih (by omega) inside
  | case5 depth c rest escape opens closes closes' ih =>
    have notClosing : c ≠ ']' := by
      cases depth with
      | zero => exact closes rfl
      | succ depth => exact closes' depth rfl
    rw [contained]
    · exact ih le inside
    · exact escape
    · exact opens
    · exact fun _ => notClosing
    · exact fun _ _ => notClosing
  | case6 => cases more <;> rfl

theorem contained_of_cons (unescaped : c ≠ '\\') (notOpening : c ≠ '[') (inside : contained depth (c :: rest)) :
    contained depth rest := by
  by_cases closing : c = ']'
  · subst closing
    cases depth with
    | zero => cases inside
    | succ depth => exact contained_mono (Nat.le_succ depth) inside
  · rwa [contained_plain (by simp [unescaped, notOpening, closing])] at inside

/-- What a step in a class may lead to before the rest of a text that does not close the class. -/
def Stays (rest : Text) : ClassStep → Prop
  | .more reading => contained reading.outer.length rest
  | .skip count reading => 0 < count ∧ count ≤ rest.length ∧ contained reading.outer.length (rest.drop count)
  | .closed _ => False
  | .fault fault => fault.ofGrammar

theorem outer_settle (reading : ClassReading) : reading.settle.outer = reading.outer := by
  unfold ClassReading.settle
  split <;> rfl

private theorem stays_endRange (first last : Char) (inside : contained reading.outer.length rest) :
    Stays rest (reading.endRange first last) := by
  unfold ClassReading.endRange
  split
  · exact inside
  · rfl

private theorem stays_close (inside : contained reading.outer.length (']' :: rest)) : Stays rest reading.close := by
  unfold ClassReading.close
  split
  next none =>
    rw [none] at inside
    cases inside
  next around outer some =>
    rw [some] at inside
    exact inside

private theorem contained_append {front : Text} (plain : ∀ c ∈ front, c ∉ ['\\', '[', ']']) (depth : Nat)
    (rest : Text) : contained depth (front ++ rest) = contained depth rest := by
  induction front with
  | nil => rfl
  | cons c front ih =>
    rw [List.cons_append, contained_plain (plain c List.mem_cons_self)]
    exact ih fun other member => plain other (List.mem_cons_of_mem c member)

private theorem plain_of_namedClass? {negated : Bool} {name : Text} {set : CharSet}
    (known : namedClass? negated name = some set) : ∀ c ∈ name, c ∉ ['\\', '[', ']'] := by
  have names : ∀ named ∈ namedRanges, named.1.toList.all (· ∉ ['\\', '[', ']']) := by decide
  obtain ⟨ranges, found, -⟩ := Option.map_eq_some_iff.mp known
  obtain ⟨earlier, later, split, -⟩ := List.lookup_eq_some_iff.mp found
  simpa using names (String.ofList name, ranges) (split ▸ by simp)

/-- A named class holds no bracket but the one that ends it. -/
private theorem exists_of_readNamedClass? {set : CharSet} {count : Nat}
    (reads : readNamedClass? rest = some (set, count)) :
    ∃ front after, rest = front ++ [']'] ++ after ∧ count = (front ++ [']']).length ∧
      ∀ c ∈ front, c ∉ ['\\', '[', ']'] := by
  unfold readNamedClass? at reads
  split at reads
  next rest =>
    have signed : ∃ sign : Text, sign ∈ [[], ['^']] ∧
        rest = sign ++ if rest.head? = some '^' then rest.tail else rest := by
      split
      next sign =>
        obtain ⟨rest, rfl⟩ := List.head?_eq_some_iff.mp sign
        exact ⟨['^'], by simp, rfl⟩
      next => exact ⟨[], by simp, rfl⟩
    simp only at reads
    generalize (if rest.head? = some '^' then rest.tail else rest) = named at signed reads
    obtain ⟨sign, known, rfl⟩ := signed
    have joined := List.takeWhile_append_dropWhile (p := (· != ':')) (l := named)
    split at reads
    next after ends =>
      obtain ⟨set, found, same⟩ := Option.map_eq_some_iff.mp reads
      cases same
      have letters := plain_of_namedClass? found
      rw [ends] at joined
      generalize named.takeWhile (· != ':') = name at joined letters
      subst joined
      refine ⟨':' :: sign ++ name ++ [':'], after, by simp, by simp; omega, fun c member => ?_⟩
      simp only [List.cons_append, List.mem_cons, List.mem_append, List.not_mem_nil, or_false] at known member
      rcases member with rfl | (member | member) | rfl
      · decide
      · rcases known with rfl | rfl
        · cases member
        · simp [List.mem_singleton.mp member]
      · exact letters c member
      · decide
    next => cases reads
  next => cases reads

private theorem contained_of_readNamedClass? {set : CharSet} {count : Nat}
    (reads : readNamedClass? rest = some (set, count)) (inside : contained (depth + 1) rest) :
    0 < count ∧ count ≤ rest.length ∧ contained depth (rest.drop count) := by
  obtain ⟨front, after, rfl, rfl, plain⟩ := exists_of_readNamedClass? reads
  refine ⟨by simp, by simp, ?_⟩
  rw [List.append_assoc, contained_append plain] at inside
  rw [List.drop_left]
  exact inside

private theorem stays_enter (inside : contained reading.outer.length ('[' :: rest)) :
    Stays rest (reading.enter rest) := by
  rw [contained_open] at inside
  unfold ClassReading.enter
  split
  next reads => exact contained_of_readNamedClass? reads inside
  next => exact inside

private theorem plain_of_operator? {operator : ClassOperator} (found : operator? c rest = some operator) :
    c ∉ ['\\', '[', ']'] ∧ ∃ after, rest = c :: after := by
  unfold operator? at found
  split at found
  next => cases found
  next same =>
    refine ⟨?_, List.head?_eq_some_iff.mp (Classical.not_not.mp same)⟩
    split at found
    · decide
    · decide
    · decide
    · cases found

private theorem stays_start (unescaped : c ≠ '\\') (inside : contained reading.outer.length (c :: rest)) :
    Stays rest (reading.start c rest) := by
  unfold ClassReading.start
  split
  next operator found =>
    obtain ⟨plain, after, rfl⟩ := plain_of_operator? found
    rw [contained_plain plain, contained_plain plain] at inside
    exact ⟨Nat.one_pos, Nat.le_add_left 1 _, inside⟩
  next =>
    split
    · exact stays_enter inside
    · exact stays_close inside
    · exact contained_of_cons unescaped ‹_› inside

private theorem stays_begin (unescaped : c ≠ '\\') (inside : contained reading.outer.length (c :: rest)) :
    Stays rest (reading.begin c rest) := by
  unfold ClassReading.begin
  split
  · exact contained_of_cons (by decide) (by decide) inside
  · split
    next none =>
      rw [List.isEmpty_iff.mp none] at inside
      cases inside
    next => rfl
  · exact stays_start unescaped inside

private theorem stays_step (unescaped : c ≠ '\\') (inside : contained reading.outer.length (c :: rest)) :
    Stays rest (reading.step c rest) := by
  unfold ClassReading.step
  split
  · split
    next sign => exact contained_of_cons unescaped (by simp [sign]) inside
    next => exact stays_begin unescaped inside
  · exact stays_begin unescaped inside
  · split
    next hyphen => exact contained_of_cons unescaped (by simp [hyphen]) inside
    next => exact stays_start unescaped inside
  · exact stays_start unescaped inside
  · split
    next range =>
      split
      · exact contained_of_cons unescaped (by simp [range]) inside
      · rfl
    next => exact stays_start unescaped (outer_settle reading ▸ inside)
  · split
    next => rfl
    next notOpening => exact stays_endRange _ _ (contained_of_cons unescaped notOpening inside)

private theorem stays_stepEscaped (c : Char) (inside : contained reading.outer.length rest) :
    Stays rest (reading.stepEscaped c) := by
  unfold ClassReading.stepEscaped
  split
  · rfl
  · exact stays_endRange _ _ inside
  · rfl
  · exact (congrArg (contained ·.length rest) (outer_settle reading)).trans inside

private theorem tokens_classRest {count : Nat} (some : 0 < count) {text : Text} (enough : count ≤ text.length) :
    tokens dialect (.classRest count reading) text = tokens dialect (.insideClass reading) (text.drop count) := by
  induction text generalizing count with
  | nil => exact absurd enough (by simp; omega)
  | cons c rest ih =>
    rw [tokens]
    split
    next one =>
      obtain rfl : count = 1 := Nat.le_antisymm one some
      rfl
    next more =>
      rw [ih (by omega) (by simpa using enough)]
      obtain ⟨count, rfl⟩ := Nat.exists_eq_succ_of_ne_zero (Nat.ne_of_gt some)
      rfl

private theorem tokens_of_stays {step : ClassStep} (stays : Stays rest step)
    (shorter : ∀ (reading : ClassReading) (text : Text), text.length ≤ rest.length →
      contained reading.outer.length text →
      ∃ fault : Fault, fault.ofGrammar ∧ tokens dialect (.insideClass reading) text = [.fault fault]) :
    ∃ fault : Fault, fault.ofGrammar ∧
      (match step with
        | .more reading => tokens dialect (.insideClass reading) rest
        | .skip count reading => tokens dialect (.classRest count reading) rest
        | .closed set => .item (.char set) :: tokens dialect (.outside .item) rest
        | .fault fault => [.fault fault]) = [.fault fault] := by
  cases step with
  | more reading => exact shorter reading rest (Nat.le_refl _) stays
  | skip count reading =>
    obtain ⟨some, enough, inside⟩ := stays
    simp only [tokens_classRest some enough]
    exact shorter reading _ (by simp) inside
  | closed => exact stays.elim
  | fault fault => exact ⟨fault, stays, rfl⟩

/-- A class that is open before a text stays open in it, if the text closes only classes that lie in it. -/
theorem tokens_open (dialect : Dialect) (reading : ClassReading) (text : Text)
    (inside : contained reading.outer.length text) :
    ∃ fault : Fault, fault.ofGrammar ∧ tokens dialect (.insideClass reading) text = [.fault fault] := by
  -- By the length of the text: an escape, an operator and a named class are taken in one step.
  match text with
  | [] => exact ⟨.unclosedClass, rfl, by rw [tokens]⟩
  | c :: rest =>
    by_cases escape : c = '\\'
    · rw [tokens, if_pos escape]
      match rest with
      | [] => exact ⟨.trailingBackslash, rfl, by rw [tokens]⟩
      | next :: rest =>
        rw [escape, contained_escape] at inside
        rw [tokens]
        exact tokens_of_stays (stays_stepEscaped next inside) fun reading text _ inside =>
          tokens_open dialect reading text inside
    · rw [tokens, if_neg escape]
      exact tokens_of_stays (stays_step escape inside)
        fun reading text _ inside => tokens_open dialect reading text inside
termination_by text.length

theorem tokens_empty_class (dialect : Dialect) (negated : Bool) (before : Before) {rest : Text}
    (inside : contained 0 rest) :
    ∃ fault : Fault, fault.ofGrammar ∧
      tokens dialect (.outside before) (['['] ++ (if negated then ['^'] else []) ++ [']'] ++ rest) =
        [.fault fault] := by
  -- The closing bracket is the first member: from then on, only a bracket more than those of the rest could close.
  cases negated with
  | false =>
    have opened := tokens_open dialect (ClassReading.add {} (.single ']') .between) rest inside
    simpa [tokens, signBounds?, ClassReading.step, ClassReading.begin] using opened
  | true =>
    have opened := tokens_open dialect
      (ClassReading.add { inner := { negated := true }, phase := .signed } (.single ']') .between) rest inside
    simpa [tokens, signBounds?, ClassReading.step, ClassReading.begin] using opened

def Even (text : Text) : Prop := ∀ depth rest, contained depth (text ++ rest) = contained depth rest

namespace Even

theorem nil : Even [] := fun _ _ => rfl

theorem append {first second : Text} (one : Even first) (other : Even second) : Even (first ++ second) := by
  intro depth rest
  rw [List.append_assoc, one, other]

theorem plain {text : Text} (plain : ∀ c ∈ text, c ∉ ['\\', '[', ']']) : Even text := contained_append plain

theorem signs {text : Text} (plain : text.all (· ∉ ['\\', '[', ']'])) : Even text :=
  contained_append (by simpa using plain)

theorem escape (c : Char) : Even ['\\', c] := fun depth rest => contained_escape depth c rest

theorem brackets {inside : Text} (even : Even inside) : Even ('[' :: inside ++ [']']) := by
  intro depth rest
  rw [List.append_assoc, List.cons_append, contained_open, even]
  rfl

theorem escapeEach {special : List Char} (known : ∀ sign ∈ ['\\', '[', ']'], sign ∈ special) (text : Text) :
    Even (text.escapeEach special) := by
  induction text with
  | nil => exact nil
  | cons c text ih =>
    rw [Text.escapeEach_cons]
    refine append ?_ ih
    split
    next => exact escape c
    next absent =>
      refine plain fun other member => ?_
      obtain rfl := List.mem_singleton.mp member
      exact fun sign => absent (known other sign)

end Even

end FluentPattern.Proofs.OpenClasses
