import Karnaugh.Decimal.Reader

/-!
# The value of a JSON number

A number without fraction and exponent is whole, and is kept exactly if it
fits 64 bits. Every other number is a binary one. Its digits are collected
into a whole number as long as that fits 64 bits; further digits count for
their place only. The rest is done by multiplying or dividing by a power of
ten, so that the result can be a little off the nearest binary number. A
number beyond the greatest one is refused.
-/

namespace Karnaugh.Json

/-- **A number that has been read.** -/
inductive Number where
  /-- A whole number that is not negative and fits 64 bits. -/
  | nat (n : Nat)
  /-- A negative whole number that fits 64 bits. -/
  | negative (n : Nat)
  /-- A binary number. -/
  | float (x : Float)

/-- Digits collected so far: their value, the power of ten it is to be
multiplied by, and whether there was a digit that did not fit. -/
structure Collected where
  /-- The value of the digits. -/
  significand : Nat
  /-- The power of ten. -/
  exponent : Int
  /-- Whether a digit was passed over. -/
  full : Bool

/-- One digit before the point more. -/
def Collected.addWhole (c : Collected) (digit : Char) : Collected :=
  let next := 10 * c.significand + (digit.toNat - 0x30)
  if c.full ∨ Nat.pow 2 64 ≤ next then { c with exponent := c.exponent + 1, full := true }
  else { c with significand := next }

/-- One digit after the point more. -/
def Collected.addFraction (c : Collected) (digit : Char) : Collected :=
  let next := 10 * c.significand + (digit.toNat - 0x30)
  if c.full ∨ Nat.pow 2 64 ≤ next then { c with full := true }
  else { c with significand := next, exponent := c.exponent - 1 }

/-- A number times a power of ten, dividing by the greatest power of ten
again and again while the exponent is below it. -/
def scale : Nat → Float → Int → Option Float
  | 0, x, _ => some x
  | fuel + 1, x, exponent =>
    if -308 ≤ exponent ∧ exponent ≤ 308 then
      let power := Float.ofScientific 1 false exponent.natAbs
      if 0 ≤ exponent then
        let y := x * power
        if y.isInf then none else some y
      else some (x / power)
    else if x == 0 then some x
    else if 0 ≤ exponent then none
    else scale fuel (x / 1e308) (exponent + 308)

/-- The parts of a number as it stands: its sign, its digits before and
after the point, and its exponent. -/
def splitLiteral (literal : List Char) : Bool × List Char × List Char × Option Int :=
  let (negative, rest) := match literal with
    | '-' :: rest => (true, rest)
    | rest => (false, rest)
  let (whole, rest) := Decimal.takeDigits rest
  let (fraction, rest) := match rest with
    | '.' :: rest => Decimal.takeDigits rest
    | rest => ([], rest)
  let exponent := if rest.isEmpty then none else Decimal.readExponent? rest
  (negative, whole, fraction, exponent)

/-- The value of a number with a fraction or exponent, or with too many
digits, its sign apart. -/
def floatValue? (whole fraction : List Char) (exponent : Option Int) : Option Float :=
  let c := whole.foldl Collected.addWhole ⟨0, 0, false⟩
  let c := fraction.foldl Collected.addFraction { c with full := false }
  let e := exponent.getD 0
  if Nat.pow 2 31 ≤ e.natAbs then
    if c.significand ≠ 0 ∧ 0 ≤ e then none else some 0
  else scale 8 (Float.ofNat c.significand) (c.exponent + e)

/-- **The value of a number** as it stands. Minus zero is a binary
number. -/
def number? (literal : List Char) : Option Number := do
  let (negative, whole, fraction, exponent) := splitLiteral literal
  let n := Decimal.digitsValue whole
  if fraction.isEmpty ∧ exponent.isNone ∧ n < Nat.pow 2 64 then
    if !negative then return .nat n
    else if n = 0 then return .float (-0.0)
    else if n ≤ Nat.pow 2 63 then return .negative n
    else return .float (-(Float.ofNat n))
  else
    let x ← floatValue? whole fraction exponent
    return .float (if negative then -x else x)

end Karnaugh.Json
