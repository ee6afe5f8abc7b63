/-!
# Places in a YAML text

Indentation counts in YAML, so the reader always knows its column, and a
key must not be far from its colon, so it knows its line and its distance
from the start too.

A line may end in five ways. Within a scalar, four of them are read as a
line feed; the two separators of Unicode stay what they are.
-/

namespace Karnaugh.Yaml

/-- Whether a character may stand in a YAML text at all. -/
def isAllowed (c : Char) : Bool :=
  let n := c.toNat
  n == 0x09 || n == 0x0A || n == 0x0D || (0x20 ≤ n && n ≤ 0x7E) || n == 0x85
    || (0xA0 ≤ n && n ≤ 0xFFFD) || 0x10000 ≤ n

/-- Whether a character is a space or a tab. -/
def isBlank (c : Char) : Bool := c == ' ' || c == '\t'

/-- Whether a character ends a line. -/
def isBreak (c : Char) : Bool :=
  c == '\n' || c == '\r' || c == '\u0085' || c == '\u2028' || c == '\u2029'

/-- Whether a character is neither a blank nor the end of a line. -/
def isSolid (c : Char) : Bool := !isBlank c && !isBreak c

/-- Whether a character may be in a name. -/
def isNameChar (c : Char) : Bool := c.isAlphanum || c == '-' || c == '_'

/-- What the end of a line is read as. -/
def normalBreak (c : Char) : Char :=
  if c == '\u2028' || c == '\u2029' then c else '\n'

/-- **A place in a text**: what follows, and where it is. -/
structure Cursor where
  /-- What follows. -/
  rest : List Char
  /-- The number of characters before. -/
  index : Nat
  /-- The number of lines before. -/
  line : Nat
  /-- The number of characters before on the same line. -/
  column : Nat

namespace Cursor

/-- The start of a text. -/
def start (text : List Char) : Cursor := ⟨text, 0, 0, 0⟩

variable (c : Cursor)

/-- The character a number of places ahead. -/
def peek (places : Nat) : Option Char := c.rest[places]?

/-- Whether the character ahead is the given one. -/
def sees (expected : Char) : Bool := c.rest.head? == some expected

/-- Whether a blank, the end of a line or the end of the text is a number
of places ahead. -/
def gapAt (places : Nat) : Bool :=
  match c.peek places with
  | none => true
  | some ch => !isSolid ch

/-- Whether the end of a line or of the text is ahead. -/
def atLineEnd : Bool :=
  match c.rest with
  | [] => true
  | ch :: _ => isBreak ch

/-- Some characters further on the same line. -/
def advance (count : Nat) : Cursor :=
  ⟨c.rest.drop count, c.index + count, c.line, c.column + count⟩

/-- **The characters ahead that satisfy a condition**, all of them on the
same line, and the place after them. -/
def span (p : Char → Bool) : List Char × Cursor :=
  let taken := c.rest.takeWhile p
  (taken, c.advance taken.length)

/-- The place after the characters ahead that satisfy a condition. -/
def skip (p : Char → Bool) : Cursor := (c.span p).2

/-- **The end of the line ahead**, as it is read, and the start of the
next. -/
def takeBreak? : Option (Char × Cursor) :=
  match c.rest with
  | '\r' :: '\n' :: rest => some ('\n', ⟨rest, c.index + 2, c.line + 1, 0⟩)
  | ch :: rest =>
    if isBreak ch then some (normalBreak ch, ⟨rest, c.index + 1, c.line + 1, 0⟩) else none
  | [] => none

/-- Whether three dashes or three dots stand alone at the start of a
line. -/
def atDocumentMark : Bool :=
  c.column == 0 && c.gapAt 3
    && (c.rest.take 3 == ['-', '-', '-'] || c.rest.take 3 == ['.', '.', '.'])

end Cursor

end Karnaugh.Yaml
