/-!
# The value of a binary number

Coordinates are binary floating-point numbers. To be written down exactly,
a number is first taken apart: unless it is infinite or no number at all,
it has a sign and is a whole number times a power of two.
-/

namespace Karnaugh.Decimal

/-- **The parts of a binary number.** -/
inductive Parts where
  /-- It is no number. -/
  | nan
  /-- It is infinite. -/
  | infinite (negative : Bool)
  /-- It is `mantissa * 2 ^ (exponent - 1074)`. -/
  | finite (negative : Bool) (mantissa exponent : Nat)
  deriving DecidableEq, Repr

/-- The parts that 64 bits encode: a sign, eleven bits of exponent and
fifty-two of mantissa, with a leading one unless the exponent is zero. -/
def Parts.ofBits (bits : Nat) : Parts :=
  let negative := bits.testBit 63
  let exponent := (bits >>> 52) % 2048
  let fraction := bits % Nat.pow 2 52
  if exponent = 2047 then
    if fraction = 0 then .infinite negative else .nan
  else if exponent = 0 then
    .finite negative fraction 0
  else
    .finite negative (Nat.pow 2 52 + fraction) (exponent - 1)

/-- The parts of a binary number. -/
def Parts.of (x : Float) : Parts :=
  Parts.ofBits x.toBits.toNat

/-- **A positive binary number with its rounding range**: the numbers
between `low` and `high` round to `value`, all three over the same
denominator. -/
structure Range where
  /-- The lower end. -/
  low : Nat
  /-- The number itself. -/
  value : Nat
  /-- The upper end. -/
  high : Nat
  /-- The denominator of all three. -/
  den : Nat
  /-- Whether the ends round to the number too. -/
  closed : Bool

/-- The range of `mantissa * 2 ^ (exponent - 1074)`. Below a power of two
the next number is only half as far, unless the numbers there are as dense
as they get. The ends belong to the range when the mantissa is even. -/
def Range.of (mantissa exponent : Nat) : Range :=
  let unit := Nat.pow 2 (exponent - 1076)
  let den := Nat.pow 2 (1076 - exponent)
  let below := if mantissa = Nat.pow 2 52 ∧ exponent ≠ 0 then 1 else 2
  { low := (4 * mantissa - below) * unit
    value := 4 * mantissa * unit
    high := (4 * mantissa + 2) * unit
    den
    closed := mantissa % 2 = 0 }

end Karnaugh.Decimal
