import Karnaugh.Grid.Basic
import Karnaugh.Text.Blank
import Karnaugh.Text.Split

/-!
# Grids as text

A grid file has a line per row with a symbol per cell: `0` for off, `1`
for on, and `X`, `x` or `-` for a don't-care. Blanks may stand anywhere in
a line. Blank lines, and lines that start with a number sign, are comments.
-/

namespace Karnaugh

/-- **Why a text is no grid.** -/
inductive GridFault where
  /-- No map has that many variables. -/
  | map (error : MapError)
  /-- There are too few or too many rows. -/
  | rowCount (expected numVars found : Nat)
  /-- A row has too few or too many symbols. -/
  | rowLength (row found expected : Nat)
  /-- A character is no symbol. -/
  | badSymbol (c : Char) (row col : Nat)
  deriving DecidableEq, Repr

/-- The fault in words. -/
def GridFault.message : GridFault → String
  | map error => error.message
  | rowCount expected numVars found =>
    s!"Expected {expected} rows for {numVars} variables, found {found}"
  | rowLength row found expected =>
    s!"Row {row} has length {found}, expected {expected}"
  | badSymbol c row col =>
    s!"Invalid character '{c}' at position ({row}, {col}). " ++
      "Only '0', '1' and 'X' are allowed"

namespace Grid

/-- Whether a trimmed line is a row, not a comment. -/
def isRow (line : List Char) : Bool :=
  !line.isEmpty && line.head? != some '#'

/-- **The rows of a text**: its lines without comments, and each without
blanks. -/
def textRows (text : List Char) : List (List Char) :=
  (((Text.split '\n' text).map Text.trim).filter isRow).map Text.compact

/-- The states of the symbols of row `row`, from column `col` on. -/
def readSymbols (row : Nat) : Nat → List Char → Except GridFault (List CellState)
  | _, [] => .ok []
  | col, c :: rest =>
    match CellState.ofSymbol? c with
    | none => .error (.badSymbol c row col)
    | some state => do return state :: (← readSymbols row (col + 1) rest)

/-- The states of rows, counted from `row`. The first row at fault ends the
reading. -/
def readRows (cols : Nat) : Nat → List (List Char) → Except GridFault (List (List CellState))
  | _, [] => .ok []
  | row, symbols :: rest => do
    if symbols.length ≠ cols then
      throw (.rowLength row symbols.length cols)
    let states ← readSymbols row 0 symbols
    return states :: (← readRows cols (row + 1) rest)

/-- **Reads a grid** for a number of variables from a text. -/
def ofText (numVars : Nat) (text : List Char) : Except GridFault Grid := do
  let layout ← (Layout.ofNumVars numVars).mapError .map
  let rows := textRows text
  if rows.length ≠ layout.rows then
    throw (.rowCount layout.rows numVars rows.length)
  let states ← readRows layout.cols 0 rows
  (ofRows layout states).mapError .map

end Grid

end Karnaugh
