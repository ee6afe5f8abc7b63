import Karnaugh.Text.Utf8

/-!
# Percent escapes

In a query a byte may be written as a percent sign with two hexadecimal
digits. A percent sign that is not followed by the number of a byte stands
for itself. As in any number, a plus sign may take the place of the first
digit.
-/

namespace Karnaugh.Text

/-- The value of a hexadecimal digit of either case. -/
def hexDigit? (b : UInt8) : Option Nat :=
  let n := b.toNat
  if 0x30 ≤ n ∧ n ≤ 0x39 then some (n - 0x30)
  else if 0x41 ≤ n ∧ n ≤ 0x46 then some (n - 0x41 + 10)
  else if 0x61 ≤ n ∧ n ≤ 0x66 then some (n - 0x61 + 10)
  else none

/-- The byte that three bytes are the escape of, if they are one. -/
def escaped? (sign first second : UInt8) : Option UInt8 := do
  guard (sign = 0x25)
  let low ← hexDigit? second
  if first = 0x2B then
    return UInt8.ofNat low
  let high ← hexDigit? first
  return UInt8.ofNat (16 * high + low)

/-- **The bytes that a row of bytes with escapes stands for.** -/
def unescape : List UInt8 → List UInt8
  | b :: first :: second :: rest =>
    match escaped? b first second with
    | some byte => byte :: unescape rest
    | none => b :: unescape (first :: second :: rest)
  | bytes => bytes

/-- **The text that a text with escapes stands for.** -/
def percentDecode (text : List Char) : List Char :=
  readUtf8 (unescape (utf8 text))

end Karnaugh.Text
