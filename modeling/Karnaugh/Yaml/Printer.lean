import Karnaugh.Decimal.Style
import Karnaugh.Document.Basic
import Karnaugh.Text.Numeral
import Karnaugh.Text.Pad
import Karnaugh.Yaml.Style

/-!
# Documents as YAML

A record has a line for each field and a list a line for each item, set in
by two spaces for each record around it. A list in a field is not set in
further, and an item that is a record starts on the line of its dash. An
empty list or record is a pair of brackets.

Every text gets the way of writing that `TextStyle.of` finds for it.
-/

namespace Karnaugh.Yaml

/-- Spaces at the start of a line. -/
def spaces (count : Nat) : List Char := List.replicate count ' '

/-- Characters between single quotes. After the end of a line they are set
in, and `broken` says that a line has just ended. -/
def singleChars (indent : Nat) : Bool → List Char → List Char
  | broken, [] => if broken then spaces indent else []
  | broken, c :: rest =>
    if isBreak c then c :: singleChars indent true rest
    else
      (if broken then spaces indent else []) ++ (if c = '\'' then ['\'', '\''] else [c])
        ++ singleChars indent false rest

/-- A text between single quotes. -/
def singleQuoted (indent : Nat) (text : List Char) : List Char :=
  '\'' :: singleChars indent false text ++ ['\'']

/-- A code point in hexadecimal, with capital letters. -/
def hexDigits (width : Nat) (c : Char) : List Char :=
  Text.zeroFill width ((Nat.toDigits 16 c.toNat).map Char.toUpper)

/-- A character as it stands between double quotes. -/
def doubleChar (c : Char) : List Char :=
  match c with
  | '"' => ['\\', '"']
  | '\\' => ['\\', '\\']
  | '\x00' => ['\\', '0']
  | '\x07' => ['\\', 'a']
  | '\x08' => ['\\', 'b']
  | '\t' => ['\\', 't']
  | '\n' => ['\\', 'n']
  | '\x0b' => ['\\', 'v']
  | '\x0c' => ['\\', 'f']
  | '\r' => ['\\', 'r']
  | '\x1b' => ['\\', 'e']
  | '\u0085' => ['\\', 'N']
  | '\u2028' => ['\\', 'L']
  | '\u2029' => ['\\', 'P']
  | c =>
    if isWritable c then [c]
    else if c.toNat ≤ 0xFF then '\\' :: 'x' :: hexDigits 2 c
    else if c.toNat ≤ 0xFFFF then '\\' :: 'u' :: hexDigits 4 c
    else '\\' :: 'U' :: hexDigits 8 c

/-- A text between double quotes. -/
def doubleQuoted (text : List Char) : List Char :=
  '"' :: text.flatMap doubleChar ++ ['"']

/-- The lines of a block, each set in; `broken` says that a line starts. -/
def blockLines (indent : Nat) : Bool → List Char → List Char
  | _, [] => []
  | broken, c :: rest =>
    if isBreak c then c :: blockLines indent true rest
    else (if broken then spaces indent else []) ++ c :: blockLines indent false rest

/-- What is said of a block before its lines: by how much it is set in, if
it starts with a space or an empty line, and whether the end of the last
line, or several such ends, are part of it. -/
def blockHead (text : List Char) : List Char :=
  let setIn := if text.head?.any fun c => isSpace c || isBreak c then ['2'] else []
  let ending :=
    match text.reverse with
    | last :: before =>
      if !isBreak last then ['-']
      else if (before.head?.map isBreak).getD true then ['+']
      else []
    | [] => ['-']
  '|' :: setIn ++ ending

/-- A text as a block, with the end of its last line. -/
def block (indent : Nat) (text : List Char) : List Char :=
  blockHead text ++ '\n' :: blockLines indent true text
    ++ (if text.getLast?.any isBreak then [] else ['\n'])

/-- **A text** in a record or list, with the end of its line. -/
def writeText (indent : Nat) (text : String) : String :=
  let chars := text.toList
  String.ofList <|
    match TextStyle.of text with
    | .plain => chars ++ ['\n']
    | .single => singleQuoted indent chars ++ ['\n']
    | .double => doubleQuoted chars ++ ['\n']
    | .block => block indent chars

/-- The start of a line that is set in. -/
def lineStart (indent : Nat) : String := "".pushn ' ' indent

/-- Lines one after another, all but the first set in. -/
def stack (indent : Nat) (lines : List String) : String :=
  (lineStart indent).intercalate lines

mutual

/-- A document from the place where it starts, with its lines set in as
given, and the text in it by two spaces more. -/
def writeAt (indent : Nat) : Document → String
  | .null => "null\n"
  | .bool b => if b then "true\n" else "false\n"
  | .nat n => Text.numeral n ++ "\n"
  | .float x => Decimal.Style.yaml.write x ++ "\n"
  | .verbatim text => text ++ "\n"
  | .text s => writeText indent s
  | .list [] => "[]\n"
  | .list items => stack indent (writeItems indent items)
  | .record [] => "\x7b\x7d\n"
  | .record fields => stack indent (writeFields indent fields)

/-- The items of a list, each after its dash. -/
def writeItems (indent : Nat) : List Document → List String
  | [] => []
  | d :: rest => ("- " ++ writeAt (indent + 2) d) :: writeItems indent rest

/-- The fields of a record. -/
def writeFields (indent : Nat) : List (String × Document) → List String
  | [] => []
  | field :: rest => writeField indent field :: writeFields indent rest

/-- A field of a record: on one line, or with the lines of its value below
the name. -/
def writeField (indent : Nat) : String × Document → String
  | (name, .list (d :: rest)) =>
    name ++ ":\n" ++ lineStart indent ++ writeAt indent (.list (d :: rest))
  | (name, .record (field :: rest)) =>
    name ++ ":\n" ++ lineStart (indent + 2) ++ writeAt (indent + 2) (.record (field :: rest))
  | (name, d) => name ++ ": " ++ writeAt (indent + 2) d

end

/-- **A document as YAML.** -/
def write (d : Document) : String := writeAt 0 d

end Karnaugh.Yaml
