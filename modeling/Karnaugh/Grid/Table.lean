import Karnaugh.Drawing
import Karnaugh.Grid.Basic

/-!
# Grids as tables

For reading, a grid is shown with the values of the variables beside its
rows and above its columns. The loops of a drawing are shown in the same
arrangement: each cell has the numbers of the loops it is in, counted from
one, or a dot.
-/

namespace Karnaugh

namespace Grid

variable (g : Grid)

/-- The names of the row and column variables, for the corner of a
table. -/
def cornerLabel : String := g.layout.rowVariables ++ "\\" ++ g.layout.colVariables

/-- The width of the labels beside the rows. -/
def labelWidth : Nat := max g.cornerLabel.length (g.layout.rowLabel 0).length

/-- The width of a column. -/
def columnWidth : Nat := max (g.layout.colLabel 0).length 1 + 1

/-- A line of a table: a label, and an entry for each column. -/
def tableLine (label : String) (entries : List String) : String :=
  Text.padLeft g.labelWidth label ++ " "
    ++ String.join (entries.map (Text.padLeft g.columnWidth)) ++ "\n"

/-- **The grid as a table** with the values of the variables. -/
def table : String :=
  let columns := List.range g.layout.cols
  let head := g.tableLine g.cornerLabel (columns.map g.layout.colLabel)
  let body := (List.range g.layout.rows).map fun row =>
    g.tableLine (g.layout.rowLabel row)
      (columns.map fun col => String.singleton (g.stateAt ⟨row, col⟩).symbol)
  head ++ String.join body

end Grid

namespace Drawing

/-- The numbers of the loops that a minterm is in, counted from one. -/
def owners (d : Drawing) (minterm : Nat) : List Nat :=
  (d.loops.filter fun loop => loop.minterms.contains minterm).map fun loop => loop.index + 1

/-- What is shown in a cell: the loops it is in, or a dot. -/
def membershipEntry (d : Drawing) (minterm : Nat) : String :=
  match d.owners minterm with
  | [] => "."
  | numbers => Text.numerals "," numbers

/-- **Which cells are in which loops**, as a table without labels. -/
def membership (d : Drawing) (layout : Layout) : String :=
  String.join <| (List.range layout.rows).map fun row =>
    String.join ((List.range layout.cols).map fun col =>
      Text.padLeft 6 (d.membershipEntry (layout.mintermAt ⟨row, col⟩))) ++ "\n"

end Drawing

end Karnaugh
