import Karnaugh.Decimal.Binary

/-!
# The shortest decimal that reads back

A binary number is written with as few decimal digits as will be read as
the same number again; among those the nearest to it. `shortest` finds it
by exact arithmetic: for one digit, two digits and so on it looks at the
two decimals with that many digits next to the number, and takes the first
that lies in the number's rounding range. Seventeen digits always do.

Two decimals may be equally near. Which of them is taken is left to the
caller.
-/

namespace Karnaugh.Decimal

/-- **A decimal**: `coefficient * 10 ^ exponent`. -/
structure Scientific where
  /-- The digits, as a number. -/
  coefficient : Nat
  /-- The power of ten. -/
  exponent : Int
  deriving DecidableEq, Repr

/-- Which of two equally near decimals is taken. -/
inductive Tie where
  /-- The greater one. -/
  | up
  /-- The one with an even last digit. -/
  | even
  deriving DecidableEq, Repr

/-- The number of decimal digits of a number; zero has one. -/
def digitCount (n : Nat) : Nat := (Nat.toDigits 10 n).length

/-- The least power of ten, by its exponent, that is greater than the
positive fraction `num / den`. -/
def magnitude (num den : Nat) : Int :=
  if den ≤ num then digitCount (num / den)
  else 1 - (digitCount ((den - 1) / num) : Int)

/-- `q` or its successor, whichever is nearer to `num / den`. -/
def nearer (tie : Tie) (q num den : Nat) : Nat :=
  match compare (2 * num) ((2 * q + 1) * den) with
  | .lt => q
  | .gt => q + 1
  | .eq =>
    match tie with
    | .up => q + 1
    | .even => if q % 2 = 0 then q else q + 1

namespace Range

variable (r : Range)

/-- Whether the fraction `num / (down * den)` lies in the range, given its
numerator over that denominator. -/
def contains (down num : Nat) : Bool :=
  if r.closed then r.low * down ≤ num && num ≤ r.high * down
  else r.low * down < num && num < r.high * down

/-- The multiple of `10 ^ exponent` in the range that is next to the value,
if there is one. -/
def onGrid? (tie : Tie) (exponent : Int) : Option Nat :=
  let up := Nat.pow 10 exponent.toNat
  let down := Nat.pow 10 (-exponent).toNat
  let num := r.value * down
  let den := r.den * up
  let q := num / den
  match r.contains down (q * den), r.contains down ((q + 1) * den) with
  | true, true => some (nearer tie q num den)
  | true, false => some q
  | false, true => some (q + 1)
  | false, false => none

/-- **The shortest decimal in the range.** -/
def shortest (tie : Tie) : Scientific :=
  let top := magnitude r.value r.den
  let found := (List.range 17).findSome? fun (k : Nat) =>
    let exponent := top - 1 - k
    (r.onGrid? tie exponent).map (⟨·, exponent⟩)
  found.getD ⟨0, 0⟩

end Range

/-- A coefficient without its trailing zeros, at most `fuel` of them, and
their number. -/
def stripZeros : Nat → Nat → Nat × Nat
  | 0, n => (n, 0)
  | fuel + 1, n =>
    if n ≠ 0 ∧ n % 10 = 0 then
      let (stripped, zeros) := stripZeros fuel (n / 10)
      (stripped, zeros + 1)
    else (n, 0)

/-- The same decimal with a coefficient that ends in no zero. -/
def Scientific.normalize (d : Scientific) : Scientific :=
  let (coefficient, zeros) := stripZeros (digitCount d.coefficient) d.coefficient
  ⟨coefficient, d.exponent + zeros⟩

/-- **The shortest decimal that is read as `mantissa * 2 ^ (exponent -
1074)`**, which must not be zero. -/
def shortest (tie : Tie) (mantissa exponent : Nat) : Scientific :=
  ((Range.of mantissa exponent).shortest tie).normalize

end Karnaugh.Decimal
