import Karnaugh.Text.Blank
import Karnaugh.Text.Numeral
import Karnaugh.Text.Split

/-!
# Lists of minterms

Minterms are listed with commas between them, `0, 1, 5`, with blanks
anywhere around the numbers. `readMinterms` is for what somebody types in:
it passes over empty entries and refuses an entry that is no number.
`lenientMinterms` is for links that may have suffered on the way: it passes
over both.
-/

namespace Karnaugh

/-- **An entry that is no minterm**, and why. -/
structure EntryFault where
  /-- The entry. -/
  entry : String
  /-- What is wrong with it. -/
  fault : Text.NumeralFault
  deriving DecidableEq, Repr

/-- The entries of a list, without the blanks around them. -/
def listEntries (text : List Char) : List (List Char) :=
  (Text.split ',' text).map Text.trim

/-- Reads entries as minterms; the first at fault ends the reading. -/
def readEntries : List (List Char) → Except EntryFault (List Nat)
  | [] => .ok []
  | entry :: rest =>
    match Text.readNumeral Text.wordBound entry with
    | .error fault => .error ⟨String.ofList entry, fault⟩
    | .ok n => (readEntries rest).map (n :: ·)

/-- **Reads a list of minterms.** Empty entries do not count. -/
def readMinterms (text : String) : Except EntryFault (List Nat) :=
  readEntries ((listEntries text.toList).filter fun entry => !entry.isEmpty)

/-- **The minterms among the entries of a list**, whatever the others
are. -/
def lenientMinterms (text : List Char) : List Nat :=
  (listEntries text).filterMap fun entry => (Text.readNumeral Text.wordBound entry).toOption

end Karnaugh
