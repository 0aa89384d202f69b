import FluentPattern.Text

/-! The shortest decimal of a binary floating point number: of all decimals that lie closer to it than to its
neighbours, one with the fewest digits, and of those the nearest. Everything is computed with natural numbers: a
grid of multiples of a power of ten is made finer and finer, until one of its two points around the number lies
in the interval of the reals that round to the number. -/

namespace FluentPattern.Decimal

/-- A positive number with the ends of the interval around it, all as multiples of one over `unit`. -/
structure Interval where
  low : Nat
  value : Nat
  high : Nat
  unit : Nat
  /-- Whether the ends belong to it. -/
  closed : Bool
deriving DecidableEq

namespace Interval

/-- Whether a multiple of one over the unit lies in the interval. -/
def contains (interval : Interval) (n : Nat) : Bool :=
  if interval.closed then interval.low ≤ n && n ≤ interval.high else interval.low < n && n < interval.high

/-- The interval with the decimal point moved, so that the powers of ten that are searched become whole numbers. -/
def scale (interval : Interval) (exponent : Int) : Interval :=
  if exponent < 0 then
    let factor := Nat.pow 10 exponent.natAbs
    ⟨interval.low * factor, interval.value * factor, interval.high * factor, interval.unit, interval.closed⟩
  else ⟨interval.low, interval.value, interval.high, interval.unit * Nat.pow 10 exponent.natAbs, interval.closed⟩

/-- The multiple of the unit that stands for the number: one of the two around it, if it lies in the interval. The
nearer one is taken, and the greater one if both are equally near. -/
def nearest? (interval : Interval) : Option Nat :=
  let below := interval.value / interval.unit
  let above := below + 1
  match interval.contains (below * interval.unit), interval.contains (above * interval.unit) with
  | true, true =>
    some (if 2 * (interval.value - below * interval.unit) < interval.unit then below else above)
  | true, false => some below
  | false, true => some above
  | false, false => none

/-- The decimal `digits * 10 ^ exponent` on the coarsest grid that has one, from a power of ten on downwards. -/
def shortest (interval : Interval) : (steps : Nat) → (exponent : Int) → Nat × Int
  | 0, exponent => (0, exponent)
  | steps + 1, exponent =>
    match (interval.scale exponent).nearest? with
    | some digits => (digits, exponent)
    | none => interval.shortest steps (exponent - 1)

end Interval

/-- The text of `digits * 10 ^ exponent` without exponent, and with a point only where there is a fraction. -/
def positional (digits : Nat) (exponent : Int) : Text :=
  let text := Nat.toDigits 10 digits
  if 0 ≤ exponent then text ++ List.replicate exponent.natAbs '0'
  else
    let places := exponent.natAbs
    if places < text.length then text.take (text.length - places) ++ ['.'] ++ text.drop (text.length - places)
    else ['0', '.'] ++ List.replicate (places - text.length) '0' ++ text

end FluentPattern.Decimal
