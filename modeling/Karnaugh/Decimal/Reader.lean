import Karnaugh.Text.Numeral

/-!
# Reading decimals

A decimal text is digits with at most one point among them, and perhaps a
sign before and an exponent after. It is read as the binary number nearest
to it. The words for infinity and for what is no number are read too, in
either case.
-/

namespace Karnaugh.Decimal

/-- The digits a text starts with, and what follows them. -/
def takeDigits (text : List Char) : List Char × List Char :=
  (text.takeWhile Char.isDigit, text.dropWhile Char.isDigit)

/-- The value of digits. -/
def digitsValue (digits : List Char) : Nat := Nat.ofDigitChars 10 digits 0

/-- **The binary number nearest to `coefficient * 10 ^ exponent`.** Beyond
the greatest and below the least of them nothing needs to be computed. -/
def nearest (coefficient : Nat) (exponent : Int) : Float :=
  let size := exponent + (Nat.toDigits 10 coefficient).length
  if coefficient = 0 ∨ size < -400 then 0
  else if 400 < size then 1 / 0
  else if 0 ≤ exponent then Float.ofScientific coefficient false exponent.toNat
  else Float.ofScientific coefficient true (-exponent).toNat

/-- The exponent after a number, with its letter and sign, when it is the
whole text; none is zero. -/
def readExponent? : List Char → Option Int
  | [] => some 0
  | letter :: rest =>
    if letter = 'e' ∨ letter = 'E' then
      let (negative, digits) := match rest with
        | '-' :: digits => (true, digits)
        | '+' :: digits => (false, digits)
        | digits => (false, digits)
      if digits.isEmpty ∨ !digits.all Char.isDigit then none
      else
        let value : Int := digitsValue digits
        some (if negative then -value else value)
    else none

/-- Reads a decimal without a sign. At least one digit must stand before or
after the point. -/
def readUnsigned? (text : List Char) : Option Float := do
  let (whole, rest) := takeDigits text
  let (fraction, rest) := match rest with
    | '.' :: rest => takeDigits rest
    | rest => ([], rest)
  if whole.isEmpty && fraction.isEmpty then none
  else
    let exponent ← readExponent? rest
    return nearest (digitsValue (whole ++ fraction)) (exponent - fraction.length)

/-- The words that stand for no finite number. -/
def readWord? (text : List Char) : Option Float :=
  let word := String.ofList (text.map Char.toLower)
  if word = "inf" ∨ word = "infinity" then some (1 / 0)
  else if word = "nan" then some (0 / 0)
  else none

/-- **Reads a decimal**, words included. -/
def read? (text : List Char) : Option Float :=
  let (negative, rest) := match text with
    | '-' :: rest => (true, rest)
    | '+' :: rest => (false, rest)
    | rest => (false, rest)
  (readUnsigned? rest <|> readWord? rest).map fun x => if negative then -x else x

end Karnaugh.Decimal
