import Karnaugh.Ascending
import Karnaugh.Layout

/-!
# Grids

A grid is a layout with a state in each cell: the function is zero there,
or one, or it does not matter. Editing goes from state to state in a round,
and `Grid.extract` reads off the two sets of minterms that make the problem.

A grid always has a state for each cell of its layout, and no others: the
type says so, and every operation keeps it.
-/

namespace Karnaugh

/-- **The state of a cell.** -/
inductive CellState where
  /-- The function is zero. -/
  | off
  /-- The function is one. -/
  | on
  /-- The value does not matter. -/
  | dontCare
  deriving DecidableEq, Repr

namespace CellState

/-- **The next state**: off, on, don't-care, and off again. -/
def next : CellState → CellState
  | off => on
  | on => dontCare
  | dontCare => off

/-- The character a state is written as. -/
def symbol : CellState → Char
  | off => '0'
  | on => '1'
  | dontCare => 'X'

/-- The state a character stands for. A don't-care has three characters. -/
def ofSymbol? : Char → Option CellState
  | '0' => some off
  | '1' => some on
  | 'X' | 'x' | '-' => some dontCare
  | _ => none

@[simp]
theorem ofSymbol?_symbol (s : CellState) : ofSymbol? s.symbol = some s := by
  cases s <;> rfl

end CellState

/-- **A grid**: a state for each cell of a layout, row by row. -/
structure Grid where
  /-- The layout. -/
  layout : Layout
  /-- The states, row by row. -/
  cells : List CellState
  /-- There is one for each cell. -/
  length_cells : cells.length = layout.cellCount
  deriving DecidableEq, Repr

namespace Grid

/-- The grid that is off everywhere. -/
def blank (layout : Layout) : Grid :=
  ⟨layout, List.replicate layout.cellCount .off, by simp⟩

/-- Where the state of a cell is kept. -/
def offset (layout : Layout) (cell : Cell) : Nat :=
  cell.row * layout.cols + cell.col

variable (g : Grid)

/-- The state of a cell on the grid; off it, nothing is on. -/
def stateAt (cell : Cell) : CellState :=
  g.cells.getD (offset g.layout cell) .off

/-- The grid with the state of one cell replaced. -/
def replace (cell : Cell) (state : CellState) : Grid :=
  ⟨g.layout, g.cells.set (offset g.layout cell) state, by simp [g.length_cells]⟩

/-- **The state of a cell.** -/
def get? (cell : Cell) : Except MapError CellState :=
  if g.layout.contains cell then .ok (g.stateAt cell) else .error (g.layout.outside cell)

/-- **Sets the state of a cell.** -/
def set? (cell : Cell) (state : CellState) : Except MapError Grid :=
  if g.layout.contains cell then .ok (g.replace cell state)
  else .error (g.layout.outside cell)

/-- **Moves a cell on to its next state**, and says which that is. -/
def toggle? (cell : Cell) : Except MapError (CellState × Grid) := do
  let next := (← g.get? cell).next
  return (next, ← g.set? cell next)

/-- The state of the cell of a minterm. -/
def stateOf? (minterm : Nat) : Except MapError CellState := do
  g.get? (← g.layout.cellOf? minterm)

/-- Sets the state of the cell of a minterm. -/
def setMinterm? (minterm : Nat) (state : CellState) : Except MapError Grid := do
  g.set? (← g.layout.cellOf? minterm) state

/-- Marks minterms as on, unless one of them is left open. -/
def markOn : Grid → List Nat → Except MapError Grid
  | g, [] => .ok g
  | g, minterm :: rest => do
    if (← g.stateOf? minterm) = .dontCare then
      throw (.overlappingDontCare minterm)
    markOn (← g.setMinterm? minterm .on) rest

/-- Marks minterms as left open. -/
def markDontCare : Grid → List Nat → Except MapError Grid
  | g, [] => .ok g
  | g, minterm :: rest => do
    markDontCare (← g.setMinterm? minterm .dontCare) rest

/-- **The grid of a problem**: on at its minterms, open at its
don't-cares. -/
def ofSets (layout : Layout) (minterms dontCares : List Nat) : Except MapError Grid := do
  markOn (← markDontCare (blank layout) dontCares) minterms

theorem length_flatten_of_forall {rows : List (List CellState)} {width : Nat}
    (h : ∀ row ∈ rows, row.length = width) : rows.flatten.length = rows.length * width := by
  induction rows with
  | nil => simp
  | cons row rows ih =>
    rw [List.flatten_cons, List.length_append, h row (by simp),
      ih fun r hr => h r (by simp [hr]), List.length_cons, Nat.succ_mul, Nat.add_comm]

/-- **The grid with the given rows**, if they have the size of the
layout. The error names the length of a row: of the first one when the
number of rows is wrong, else of the first that is wrong. -/
def ofRows (layout : Layout) (rows : List (List CellState)) : Except MapError Grid :=
  let mismatch (foundCols : Nat) : MapError :=
    .gridDimensionMismatch layout.rows layout.cols rows.length foundCols
  if hrows : rows.length = layout.rows then
    match hfind : rows.find? fun row => row.length != layout.cols with
    | some row => .error (mismatch row.length)
    | none => .ok ⟨layout, rows.flatten, by
        rw [length_flatten_of_forall (by simpa using hfind), hrows, Layout.cellCount]⟩
  else
    .error (mismatch ((rows.head?.map List.length).getD 0))

/-- The minterms whose cells are in a state. -/
def mintermsIn (state : CellState) : List Nat :=
  ascending ((g.layout.cells.filter fun cell => g.stateAt cell = state).map g.layout.mintermAt)

/-- **The problem a grid stands for**: its minterms and its don't-cares,
each ascending. -/
def extract : List Nat × List Nat :=
  (g.mintermsIn .on, g.mintermsIn .dontCare)

/-- How many cells are in a state. -/
def count (state : CellState) : Nat :=
  g.cells.count state

/-- The rows of the grid. -/
def rows : List (List CellState) :=
  (List.range g.layout.rows).map fun row =>
    (List.range g.layout.cols).map fun col => g.stateAt ⟨row, col⟩

/-- **The grid as text**: a line of symbols per row. -/
def toChars : List Char :=
  g.rows.flatMap fun row => row.map CellState.symbol ++ ['\n']

/-- The grid as text. -/
def toText : String := String.ofList g.toChars

end Grid

end Karnaugh
