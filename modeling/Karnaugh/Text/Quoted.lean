import Karnaugh.Text.Unprintable

/-!
# Quoted text

A message that shows what somebody wrote shows it between double quotes,
so that its ends can be seen. Quotes and backslashes inside are written
after a backslash, tab, carriage return, line feed and the null character
by their letters, and a character that would not be seen by its code point
in hexadecimal, as `\u{305}`.
-/

namespace Karnaugh.Text

/-- One character as it stands inside a quoted text. -/
def quoteChar (c : Char) : List Char :=
  match c with
  | '"' => ['\\', '"']
  | '\\' => ['\\', '\\']
  | '\t' => ['\\', 't']
  | '\r' => ['\\', 'r']
  | '\n' => ['\\', 'n']
  | '\x00' => ['\\', '0']
  | c =>
    if isUnprintable c then ['\\', 'u', '\x7b'] ++ Nat.toDigits 16 c.toNat ++ ['\x7d']
    else [c]

/-- **A text between double quotes.** -/
def quoted (text : String) : String :=
  String.ofList ('"' :: text.toList.flatMap quoteChar ++ ['"'])

end Karnaugh.Text
