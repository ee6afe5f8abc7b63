import Karnaugh.Decimal.Style
import Karnaugh.Document.Basic
import Karnaugh.Text.Numeral
import Karnaugh.Text.Pad

/-!
# Documents as JSON

JSON is written in two ways: without any space, and with a line for each
item and field, set in by two spaces for each list or record around it. An
empty list or record stays on its line.

Inside a text, quotes, backslashes and control characters are escaped, and
nothing else.
-/

namespace Karnaugh.Json

/-- A character as it stands inside a text. -/
def escapeChar (c : Char) : List Char :=
  match c with
  | '"' => ['\\', '"']
  | '\\' => ['\\', '\\']
  | '\n' => ['\\', 'n']
  | '\r' => ['\\', 'r']
  | '\t' => ['\\', 't']
  | '\x08' => ['\\', 'b']
  | '\x0c' => ['\\', 'f']
  | c =>
    if c.toNat < 0x20 then ['\\', 'u'] ++ Text.zeroFill 4 (Nat.toDigits 16 c.toNat) else [c]

/-- **A text between quotes.** -/
def quoted (s : String) : String :=
  String.ofList ('"' :: s.toList.flatMap escapeChar ++ ['"'])

/-- A value that is neither a list nor a record. -/
def scalar : Document → String
  | .null => "null"
  | .bool b => if b then "true" else "false"
  | .nat n => Text.numeral n
  | .float x => Decimal.Style.json.write x
  | .verbatim text => text
  | .text s => quoted s
  | .list _ => "[]"
  | .record _ => "\x7b\x7d"

mutual

/-- **A document without any space.** -/
def compact : Document → String
  | .list items => "[" ++ ",".intercalate (compactItems items) ++ "]"
  | .record fields => "\x7b" ++ ",".intercalate (compactFields fields) ++ "\x7d"
  | .null => scalar .null
  | .bool b => scalar (.bool b)
  | .nat n => scalar (.nat n)
  | .float x => scalar (.float x)
  | .verbatim text => scalar (.verbatim text)
  | .text s => scalar (.text s)

/-- The items of a list. -/
def compactItems : List Document → List String
  | [] => []
  | d :: rest => compact d :: compactItems rest

/-- The fields of a record. -/
def compactFields : List (String × Document) → List String
  | [] => []
  | field :: rest => compactField field :: compactFields rest

/-- A field of a record. -/
def compactField : String × Document → String
  | (name, d) => quoted name ++ ":" ++ compact d

end

/-- The start of a line inside `depth` lists and records. -/
def newLine (depth : Nat) : String :=
  "\n".pushn ' ' (2 * depth)

/-- Lines between an opening and a closing bracket. -/
def bracket (opening closing : String) (depth : Nat) (lines : List String) : String :=
  match lines with
  | [] => opening ++ closing
  | lines =>
    opening ++ newLine (depth + 1) ++ ("," ++ newLine (depth + 1)).intercalate lines
      ++ newLine depth ++ closing

mutual

/-- A document with a line for each item and field, inside `depth` lists
and records. -/
def prettyAt (depth : Nat) : Document → String
  | .list items => bracket "[" "]" depth (prettyItems (depth + 1) items)
  | .record fields => bracket "\x7b" "\x7d" depth (prettyFields (depth + 1) fields)
  | .null => scalar .null
  | .bool b => scalar (.bool b)
  | .nat n => scalar (.nat n)
  | .float x => scalar (.float x)
  | .verbatim text => scalar (.verbatim text)
  | .text s => scalar (.text s)

/-- The items of a list. -/
def prettyItems (depth : Nat) : List Document → List String
  | [] => []
  | d :: rest => prettyAt depth d :: prettyItems depth rest

/-- The fields of a record. -/
def prettyFields (depth : Nat) : List (String × Document) → List String
  | [] => []
  | field :: rest => prettyField depth field :: prettyFields depth rest

/-- A field of a record. -/
def prettyField (depth : Nat) : String × Document → String
  | (name, d) => quoted name ++ ": " ++ prettyAt depth d

end

/-- **A document with a line for each item and field.** -/
def pretty (d : Document) : String := prettyAt 0 d

end Karnaugh.Json
