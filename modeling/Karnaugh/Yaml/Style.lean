import Karnaugh.Yaml.Cursor
import Karnaugh.Yaml.Scalar

/-!
# How a text is written

A text is written as it is, if it reads back as that text. If it could be
taken for something else, it goes between single quotes; a text of several
lines is written as a block; and where neither can hold it, it goes between
double quotes, with escapes.

What decides is where blanks and ends of lines are: at the ends of the
text, after one another, or before and after marks that have a meaning.
-/

namespace Karnaugh.Yaml

/-- **A way of writing a text.** -/
inductive TextStyle where
  /-- As it is. -/
  | plain
  /-- Between single quotes. -/
  | single
  /-- Between double quotes. -/
  | double
  /-- As a block. -/
  | block
  deriving DecidableEq, Repr

/-- Whether a character can be written without an escape. -/
def isWritable (c : Char) : Bool :=
  let n := c.toNat
  n == 0x0A || (0x20 ≤ n && n ≤ 0x7E) || (0xA0 ≤ n && n ≤ 0xFFFD && n != 0xFEFF)

/-- The words that some readers take for truth values. -/
def truthWords : List String :=
  ["y", "Y", "yes", "Yes", "YES", "n", "N", "no", "No", "NO", "true", "True", "TRUE",
    "false", "False", "FALSE", "on", "On", "ON", "off", "Off", "OFF"]

/-- Whether two characters that satisfy conditions are next to each
other. -/
def hasPair (first second : Char → Bool) : List Char → Bool
  | a :: b :: rest => (first a && second b) || hasPair first second (b :: rest)
  | _ => false

/-- Whether a text has a mark with a meaning at its start. -/
def startsWithMark (text : List Char) : Bool :=
  match text with
  | [] => false
  | c :: rest =>
    let gapNext := (rest.head?.map fun next => !isSolid next).getD true
    ['#', ',', '[', ']', '\x7b', '\x7d', '&', '*', '!', '|', '>', '\'', '"', '%', '@',
        '\x60'].contains c
      || ((c == '?' || c == ':' || c == '-') && gapNext)
      || text.take 3 == ['-', '-', '-'] || text.take 3 == ['.', '.', '.']

/-- Whether a text has a colon before a gap or its end, or a number sign
after a gap. -/
def hasInnerMark (text : List Char) : Bool :=
  text.getLast? == some ':'
    || hasPair (· == ':') (fun c => !isSolid c) text
    || hasPair (fun c => !isSolid c) (· == '#') text

/-- Whether a character is a space. -/
def isSpace (c : Char) : Bool := c == ' '

/-- Whether a text starts or ends with a space or the end of a line. -/
def hasLooseEnd (text : List Char) : Bool :=
  text.head?.any (fun c => isSpace c || isBreak c)
    || text.getLast?.any (fun c => isSpace c || isBreak c)

/-- Whether a text can only be written with escapes. -/
def needsEscapes (text : List Char) : Bool :=
  !text.all isWritable || hasPair isSpace isBreak text

/-- Whether a text can be written as it is. -/
def fitsPlain (text : List Char) : Bool :=
  !(needsEscapes text || hasLooseEnd text || text.any isBreak
    || startsWithMark text || hasInnerMark text)

/-- Whether a text can be written between single quotes. -/
def fitsSingle (text : List Char) : Bool :=
  !(needsEscapes text || hasPair isBreak isSpace text)

/-- Whether a text can be written as a block. -/
def fitsBlock (text : List Char) : Bool :=
  !(needsEscapes text || text.getLast?.any isSpace)

/-- **The way in which a text is written.** -/
def TextStyle.of (text : String) : TextStyle :=
  let chars := text.toList
  if truthWords.contains text then .single
  else if chars.contains '\n' then (if fitsBlock chars then .block else .double)
  else if isTextOnly text && fitsPlain chars then .plain
  else if fitsSingle chars then .single
  else .double

end Karnaugh.Yaml
