import Karnaugh.Decimal.Reader

/-!
# What plain scalars mean

A scalar that is written as it is can stand for nothing, for a truth value
or for a number. Everything else is a text, and so are digits after a zero,
which would be a number elsewhere.
-/

namespace Karnaugh.Yaml

/-- Whether a scalar is a word for nothing. -/
def isNullWord (text : String) : Bool :=
  text == "null" || text == "Null" || text == "NULL" || text == "~"

/-- The truth value of a scalar. -/
def truth? (text : String) : Option Bool :=
  if text = "true" ∨ text = "True" ∨ text = "TRUE" then some true
  else if text = "false" ∨ text = "False" ∨ text = "FALSE" then some false
  else none

/-- Whether there is a sign first. -/
def isSigned (text : List Char) : Bool :=
  match text with
  | '+' :: _ | '-' :: _ => true
  | _ => false

/-- A text without the plus sign it may start with. -/
def dropPlus : List Char → List Char
  | '+' :: rest => rest
  | text => text

/-- A text without the sign it may start with. -/
def dropSign (text : List Char) : List Char := if isSigned text then text.drop 1 else text

/-- Whether a text is digits that start with a zero. -/
def isPaddedDigits (text : List Char) : Bool :=
  match dropSign text with
  | '0' :: rest => !rest.isEmpty && rest.all Char.isDigit
  | _ => false

/-- The value of a digit in a base. -/
def digitIn? (base : Nat) (c : Char) : Option Nat :=
  let value? :=
    if c.isDigit then some (c.toNat - '0'.toNat)
    else if 'a' ≤ c ∧ c ≤ 'z' then some (c.toNat - 'a'.toNat + 10)
    else if 'A' ≤ c ∧ c ≤ 'Z' then some (c.toNat - 'A'.toNat + 10)
    else none
  value?.bind fun value => if value < base then some value else none

/-- The value of digits in a base; there must be one. -/
def natIn? (base : Nat) (digits : List Char) : Option Nat := do
  let values ← digits.mapM (digitIn? base)
  guard (!values.isEmpty)
  return values.foldl (fun n digit => base * n + digit) 0

/-- A number in base 16, 8 or 2, after the letter for it. -/
def natByLetter? : List Char → Option Nat
  | '0' :: 'x' :: digits => natIn? 16 digits
  | '0' :: 'o' :: digits => natIn? 8 digits
  | '0' :: 'b' :: digits => natIn? 2 digits
  | _ => none

/-- **The whole number that a scalar stands for**, if it is not
negative. -/
def nat? (text : String) : Option Nat :=
  let bare := dropPlus text.toList
  natByLetter? bare <|>
    (if isSigned bare || isPaddedDigits text.toList then none else natIn? 10 bare)

/-- The negative whole number that a scalar stands for, without its
sign. -/
def negative? (text : String) : Option Nat :=
  match text.toList with
  | '-' :: rest =>
    natByLetter? rest <|>
      (if isSigned rest || isPaddedDigits text.toList then none else natIn? 10 rest)
  | _ => none

/-- **The binary number that a scalar stands for.** The words for infinity
and for what is no number have a dot first. -/
def float? (text : String) : Option Float :=
  let bare := String.ofList (dropPlus text.toList)
  if isSigned text.toList && isSigned (text.toList.drop 1) then none
  else if bare = ".inf" ∨ bare = ".Inf" ∨ bare = ".INF" then some (1 / 0)
  else if text = "-.inf" ∨ text = "-.Inf" ∨ text = "-.INF" then some (-(1 / 0))
  else if text = ".nan" ∨ text = ".NaN" ∨ text = ".NAN" then some (0 / 0)
  else
    match Decimal.read? bare.toList with
    | some x => if x.isFinite then some x else none
    | none => none

/-- Whether a scalar is a whole number of 128 bits at most. -/
def isWhole (text : String) : Bool :=
  (nat? text).any (· < Nat.pow 2 128) || (negative? text).any (· ≤ Nat.pow 2 127)

/-- **Whether a scalar is a text** and nothing else. -/
def isTextOnly (text : String) : Bool :=
  !(text.isEmpty || isNullWord text || (truth? text).isSome || isWhole text
    || (float? text).isSome || isPaddedDigits text.toList)

end Karnaugh.Yaml
