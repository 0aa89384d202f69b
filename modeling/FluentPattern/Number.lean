import FluentPattern.Decimal.Shortest

/-! Numbers that can stand in a pattern, and their decimal text: integers as they are, floating point numbers
with the fewest digits that tell them from the other numbers of their own format. -/

namespace FluentPattern

/-- A binary floating point format: how many bits its words give to the fraction and to the exponent, and from which
power of ten on its decimals are searched. -/
structure FloatFormat where
  fractionBits : Nat
  exponentBits : Nat
  topExponent : Int
  steps : Nat

namespace FloatFormat

/-- Words of 64 bits; the greatest number is below `10 ^ 309`, the least one needs a power of `-324`. -/
def double : FloatFormat := ⟨52, 11, 309, 700⟩

/-- Words of 32 bits; the greatest number is below `10 ^ 39`, the least one needs a power of `-45`. -/
def single : FloatFormat := ⟨23, 8, 39, 120⟩

/-- The exponent of the least numbers, which every number of exponent field zero or one has. -/
def leastExponent (format : FloatFormat) : Int :=
  2 - (1 <<< (format.exponentBits - 1) : Nat) - format.fractionBits

/-- The number `significand * 2 ^ exponent` between the points halfway to its neighbours. The neighbour below a power
of two is half as far away. A number with an even significand takes the halfway points too. -/
def interval (format : FloatFormat) (significand : Nat) (exponent : Int) : Decimal.Interval :=
  let power : Nat := 1 <<< exponent.natAbs
  let low := if significand = 1 <<< format.fractionBits then 1 else 2
  let scaled (n : Nat) : Nat := if exponent < 0 then n else n * power
  let unit := if exponent < 0 then 4 * power else 4
  ⟨scaled (4 * significand - low), scaled (4 * significand), scaled (4 * significand + 2), unit,
    significand % 2 == 0⟩

def text (format : FloatFormat) (word : Nat) : Text :=
  let fraction := word % (1 <<< format.fractionBits)
  let field := (word >>> format.fractionBits) % (1 <<< format.exponentBits)
  let sign : Text := if (word >>> (format.fractionBits + format.exponentBits)) % 2 = 1 then ['-'] else []
  if field = (1 <<< format.exponentBits) - 1 then
    if fraction = 0 then sign ++ ['i', 'n', 'f'] else ['N', 'a', 'N']
  else if field = 0 ∧ fraction = 0 then sign ++ ['0']
  else
    let significand := if field = 0 then fraction else (1 <<< format.fractionBits) + fraction
    let exponent := format.leastExponent + (field - 1 : Nat)
    let (digits, power) := (format.interval significand exponent).shortest format.steps format.topExponent
    sign ++ Decimal.positional digits power

end FloatFormat

/-- A number: an integer, or the word of a floating point number. -/
inductive Number where
  | integer (value : Int)
  | single (word : UInt32)
  | double (word : UInt64)
deriving DecidableEq

def Number.text : Number → Text
  | .integer value => if value < 0 then '-' :: Nat.toDigits 10 value.natAbs else Nat.toDigits 10 value.natAbs
  | .single word => FloatFormat.single.text word.toNat
  | .double word => FloatFormat.double.text word.toNat

end FluentPattern
