/-!
# Padding to a column

Tables are made of columns of a least width, counted in characters. An
entry that is wider than its column is written in full.
-/

namespace Karnaugh.Text

/-- **Pads on the left**, so that the text ends the column. -/
def padLeft (width : Nat) (text : String) : String :=
  "".pushn ' ' (width - text.length) ++ text

/-- **Pads on the right**, so that the text starts the column. -/
def padRight (width : Nat) (text : String) : String :=
  text ++ "".pushn ' ' (width - text.length)

/-- Digits filled up on the left with zeros to a least width. -/
def zeroFill (width : Nat) (digits : List Char) : List Char :=
  List.replicate (width - digits.length) '0' ++ digits

end Karnaugh.Text
