import Karnaugh.Error
import Karnaugh.Gray
import Karnaugh.Text.Pad

/-!
# The layout of a map

A map of two to four variables is a grid. The first half of the variables
(rounded down) selects the row and the others the column, and rows and
columns are numbered by the Gray code, so that neighbouring cells differ in
one variable – across the edges too.

`Layout.cellOf?` finds the cell of a minterm and `Layout.mintermAt?` the
minterm of a cell. They undo each other on the grid, and each says what is
wrong with an argument that is not on it.
-/

namespace Karnaugh

/-- The least number of variables of a map. -/
def minGridVariables : Nat := 2

/-- The greatest number of variables of a map. -/
def maxGridVariables : Nat := 4

/-- **The layout of a map**, given by its number of variables. -/
structure Layout where
  /-- The number of variables. -/
  numVars : Nat
  /-- There are at least two. -/
  two_le : minGridVariables ≤ numVars
  /-- There are at most four. -/
  le_four : numVars ≤ maxGridVariables
  deriving DecidableEq, Repr

namespace Layout

/-- **The layout for a number of variables**, if a map can be drawn for
it. -/
def ofNumVars (numVars : Nat) : Except MapError Layout :=
  if h : minGridVariables ≤ numVars ∧ numVars ≤ maxGridVariables then
    .ok ⟨numVars, h.1, h.2⟩
  else
    .error (.unsupportedVariableCount numVars minGridVariables maxGridVariables)

variable (layout : Layout)

/-- How many variables select the row. -/
def rowBits : Nat := layout.numVars / 2

/-- How many variables select the column. -/
def colBits : Nat := layout.numVars - layout.rowBits

/-- The number of rows. -/
def rows : Nat := Nat.pow 2 layout.rowBits

/-- The number of columns. -/
def cols : Nat := Nat.pow 2 layout.colBits

/-- The number of cells. -/
def cellCount : Nat := layout.rows * layout.cols

/-- Whether a cell is on the grid. -/
def contains (cell : Cell) : Bool :=
  cell.row < layout.rows && cell.col < layout.cols

/-- The error for a cell that is not on the grid. -/
def outside (cell : Cell) : MapError :=
  .cellOutOfRange cell layout.rows layout.cols

/-- The cell whose row and column have the Gray codes that make up a
minterm. -/
def cellOf (minterm : Nat) : Cell :=
  ⟨ungray (minterm >>> layout.colBits), ungray (minterm % layout.cols)⟩

/-- The minterm made up of the Gray codes of a row and a column. -/
def mintermAt (cell : Cell) : Nat :=
  gray cell.row * layout.cols + gray cell.col

/-- **The cell of a minterm.** -/
def cellOf? (minterm : Nat) : Except MapError Cell :=
  if minterm < layout.cellCount then .ok (layout.cellOf minterm)
  else .error (.mintermOutOfRange minterm layout.numVars)

/-- **The minterm of a cell.** -/
def mintermAt? (cell : Cell) : Except MapError Nat :=
  if layout.contains cell then .ok (layout.mintermAt cell)
  else .error (layout.outside cell)

/-- **The cells of the grid**, row by row. -/
def cells : List Cell :=
  (List.range layout.rows).flatMap fun row =>
    (List.range layout.cols).map fun col => ⟨row, col⟩

/-- The neighbours of a cell to the right and below, around the edge where
need be. -/
def neighbors (cell : Cell) : Cell × Cell :=
  (⟨cell.row, (cell.col + 1) % layout.cols⟩, ⟨(cell.row + 1) % layout.rows, cell.col⟩)

/-- The variables that select the row. -/
def rowVariables : String :=
  String.ofList (variableNames.take layout.rowBits)

/-- The variables that select the column. -/
def colVariables : String :=
  String.ofList ((variableNames.take layout.numVars).drop layout.rowBits)

/-- The Gray code of a position in binary, with a digit per variable at
least. Positions count modulo 2³². -/
def axisLabel (bits position : Nat) : String :=
  String.ofList (Text.zeroFill bits (Text.binary (gray (position % Text.wordBound))))

/-- **The label of a row**: the values of the row variables there. -/
def rowLabel (row : Nat) : String := axisLabel layout.rowBits row

/-- **The label of a column**: the values of the column variables
there. -/
def colLabel (col : Nat) : String := axisLabel layout.colBits col

end Layout

end Karnaugh
