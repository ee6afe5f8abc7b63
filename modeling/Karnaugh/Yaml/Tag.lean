import Karnaugh.Json.Reader
import Karnaugh.Text.Utf8
import Karnaugh.Yaml.Cursor
import Karnaugh.Yaml.Token

/-!
# Names, tags and directives

A node can be given a name, with an ampersand, and stand elsewhere under
it, with an asterisk. It can have a tag, after an exclamation mark: a
handle and the rest of an address. Directives before a document, after a
percent sign, say which version of YAML it is in and what handles stand
for.
-/

namespace Karnaugh.Yaml

/-- **The name ahead**, after its indicator. It must end before a gap or
certain marks. -/
def takeName (c : Cursor) : Option (String × Cursor) := do
  let (name, c) := c.span isNameChar
  guard (!name.isEmpty)
  match c.rest with
  | [] => return (String.ofList name, c)
  | ch :: _ =>
    guard (!isSolid ch || ['?', ':', ',', ']', '\x7d', '%', '@', '\x60'].contains ch)
    return (String.ofList name, c)

/-- Whether a character may be in an address; brackets and commas may be
only in a full one. -/
def isAddressChar (full : Bool) (ch : Char) : Bool :=
  isNameChar ch
    || [';', '/', '?', ':', '@', '&', '=', '+', '$', '.', '%', '!', '~', '*', '\'', '(',
      ')'].contains ch
    || (full && [',', '[', ']'].contains ch)

/-- The bytes of an address, with its escapes resolved. -/
def addressBytes : List Char → Option (List UInt8)
  | [] => some []
  | '%' :: a :: b :: rest => do
    let high ← Json.hexValue? a
    let low ← Json.hexValue? b
    return UInt8.ofNat (16 * high + low) :: (← addressBytes rest)
  | '%' :: _ => none
  | ch :: rest => do return Text.utf8 [ch] ++ (← addressBytes rest)

/-- The address ahead. An escape must make a character together with its
neighbours. -/
def takeAddress (full : Bool) (c : Cursor) : Option (String × Cursor) := do
  let (chars, c) := c.span (isAddressChar full)
  let bytes ← addressBytes chars
  let text := Text.readUtf8 bytes
  guard (Text.utf8 text = bytes)
  return (String.ofList text, c)

/-- The handle of a tag ahead: its name between exclamation marks, of which
the last may be missing. -/
def takeHandle (c : Cursor) : Option (List Char × Cursor) := do
  guard (c.sees '!')
  let (name, c) := (c.advance 1).span isNameChar
  if c.sees '!' then return ('!' :: name ++ ['!'], c.advance 1)
  else return ('!' :: name, c)

/-- The tag ahead, by its handle and the rest. -/
def takeTagParts (c : Cursor) : Option (String × String × Cursor) := do
  if c.peek 1 = some '<' then
    let (address, c) ← takeAddress true (c.advance 2)
    guard (!address.isEmpty)
    guard (c.sees '>')
    return ("", address, c.advance 1)
  else
    let (handle, after) ← takeHandle c
    if 2 ≤ handle.length ∧ handle.getLast? = some '!' then
      let (suffix, after) ← takeAddress false after
      guard (!suffix.isEmpty)
      return (String.ofList handle, suffix, after)
    else
      let (suffix, after) ← takeAddress false after
      let suffix := String.ofList (handle.drop 1) ++ suffix
      if suffix.isEmpty then return ("", "!", after) else return ("!", suffix, after)

/-- **The tag ahead.** It must end before a gap, or before a comma inside
brackets. -/
def takeTag (inFlow : Bool) (c : Cursor) : Option (Token × Cursor) := do
  let (handle, suffix, c) ← takeTagParts c
  guard (c.gapAt 0 || (inFlow && c.sees ','))
  return (.tag handle suffix, c)

/-- The digits ahead, nine at most. -/
def takeVersionNumber (c : Cursor) : Option (Nat × Cursor) := do
  let (digits, c) := c.span Char.isDigit
  guard (!digits.isEmpty ∧ digits.length ≤ 9)
  return (Nat.ofDigitChars 10 digits 0, c)

/-- The rest of a directive by its name. -/
def takeDirectiveBody (name : List Char) (c : Cursor) : Option (Token × Cursor) := do
  if name = ['Y', 'A', 'M', 'L'] then
    let (major, c) ← takeVersionNumber (c.skip isBlank)
    guard (c.sees '.')
    let (minor, c) ← takeVersionNumber (c.advance 1)
    return (.version major minor, c)
  else if name = ['T', 'A', 'G'] then
    let (handle, c) ← takeHandle (c.skip isBlank)
    guard (handle = ['!'] ∨ handle.getLast? = some '!')
    guard (c.rest.head?.map isBlank = some true)
    let (address, c) ← takeAddress true (c.skip isBlank)
    guard (!address.isEmpty)
    guard (c.gapAt 0)
    return (.tagHandle (String.ofList handle) address, c)
  else none

/-- **The directive ahead**, with its line. -/
def takeDirective (c : Cursor) : Option (Token × Cursor) := do
  let (name, c) := (c.advance 1).span isNameChar
  guard (!name.isEmpty)
  guard (c.gapAt 0)
  let (token, c) ← takeDirectiveBody name c
  let c := c.skip isBlank
  let c := if c.sees '#' then c.skip fun ch => !isBreak ch else c
  guard c.atLineEnd
  match c.takeBreak? with
  | some (_, next) => return (token, next)
  | none => return (token, c)

end Karnaugh.Yaml
