import Karnaugh.Json.Reader
import Karnaugh.Yaml.Gap

/-!
# Quoted scalars

Between single quotes every character stands for itself, and a quote is
written twice. Between double quotes a backslash starts an escape: a letter
for a control character, or the number of a character in hexadecimal; at
the end of a line it joins the line to the next one.
-/

namespace Karnaugh.Yaml

/-- The character that a letter stands for after a backslash. -/
def escapedChar? : Char → Option Char
  | '0' => some '\x00'
  | 'a' => some '\x07'
  | 'b' => some '\x08'
  | 't' | '\t' => some '\t'
  | 'n' => some '\n'
  | 'v' => some '\x0b'
  | 'f' => some '\x0c'
  | 'r' => some '\r'
  | 'e' => some '\x1b'
  | ' ' => some ' '
  | '"' => some '"'
  | '/' => some '/'
  | '\\' => some '\\'
  | 'N' => some '\u0085'
  | '_' => some '\u00a0'
  | 'L' => some '\u2028'
  | 'P' => some '\u2029'
  | _ => none

/-- The number of digits after a letter that announces the number of a
character. -/
def escapeLength? : Char → Option Nat
  | 'x' => some 2
  | 'u' => some 4
  | 'U' => some 8
  | _ => none

/-- The character of a number in hexadecimal. -/
def charOfHex? (digits : List Char) : Option Char := do
  let n ← digits.foldlM (fun n d => (Json.hexValue? d).map (16 * n + ·)) 0
  if n < 0xD800 ∨ (0xDFFF < n ∧ n ≤ 0x10FFFF) then return Char.ofNat n else none

/-- The escape ahead, after its backslash: its character, and its length
with the backslash. -/
def takeEscape : List Char → Option (Char × Nat)
  | [] => none
  | letter :: rest =>
    match escapeLength? letter with
    | none => (escapedChar? letter).map (·, 2)
    | some count =>
      if rest.length < count then none
      else (charOfHex? (rest.take count)).map (·, count + 2)

/-- What ends a stretch of a quoted scalar. -/
inductive StretchEnd where
  /-- The closing quote. -/
  | quote
  /-- A gap. -/
  | gap
  /-- A line that is joined to the next. -/
  | joined

/-- The stretch of a scalar ahead up to a gap or the closing quote. -/
def takeStretch (double : Bool) : Nat → Cursor → List Char → Option (List Char × StretchEnd × Cursor)
  | 0, _, _ => none
  | fuel + 1, c, text =>
    match c.rest with
    | [] => some (text, .gap, c)
    | ch :: rest =>
      if !isSolid ch then some (text, .gap, c)
      else if !double && ch == '\'' then
        if rest.head? = some '\'' then takeStretch double fuel (c.advance 2) (text ++ ['\''])
        else some (text, .quote, c.advance 1)
      else if double && ch == '"' then some (text, .quote, c.advance 1)
      else if double && ch == '\\' then
        match (c.advance 1).takeBreak? with
        | some (_, next) => some (text, .joined, next)
        | none =>
          match takeEscape rest with
          | some (decoded, length) =>
            takeStretch double fuel (c.advance length) (text ++ [decoded])
          | none => none
      else takeStretch double fuel (c.advance 1) (text ++ [ch])

/-- Reads stretches and gaps up to the closing quote. A mark between
documents may not be inside. -/
def takeQuotedFrom (double : Bool) : Nat → Cursor → List Char → Option (List Char × Cursor)
  | 0, _, _ => none
  | fuel + 1, c, text => do
    guard (!c.atDocumentMark)
    guard (!c.rest.isEmpty)
    let (text, stop, c) ← takeStretch double (c.rest.length + 1) c text
    match stop with
    | .quote => return (text, c)
    | .gap =>
      let (gap, c) ← takeGap 0 c
      takeQuotedFrom double fuel c (text ++ gap.fold)
    | .joined =>
      let (gap, c) ← takeGapFrom 0 c.rest.length c (.continued [])
      takeQuotedFrom double fuel c (text ++ gap.fold)

/-- **The quoted scalar ahead**, after its opening quote, and the place
after it. -/
def takeQuoted (double : Bool) (c : Cursor) : Option (String × Cursor) := do
  let (text, c) ← takeQuotedFrom double (c.rest.length + 1) c []
  return (String.ofList text, c)

end Karnaugh.Yaml
