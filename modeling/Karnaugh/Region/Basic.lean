import Karnaugh.Ascending
import Karnaugh.Layout
import Karnaugh.Region.AxisSpan

/-!
# Regions of a map

The minterms of a product term fill a rectangle of the map, if the map is
taken as a torus: the rectangle may go across the upper and lower edge,
across the left and right edge, or across both.

`Region.classify` finds the rectangle of a group of minterms, or says why
the group is none. The reasons are tried in a fixed order, so that a group
with several faults is always refused for the same one.
-/

namespace Karnaugh

/-- **A rectangle on the torus**, by its rows and columns. -/
inductive Region where
  /-- It crosses no edge. -/
  | rectangle (rows cols : AxisSpan)
  /-- It crosses the upper and lower edge. -/
  | wrappedRows (rows cols : AxisSpan)
  /-- It crosses the left and right edge. -/
  | wrappedCols (rows cols : AxisSpan)
  /-- It crosses all edges: only the corners of the map are in it. -/
  | wrappedBoth (rows cols : AxisSpan)
  deriving DecidableEq, Repr

/-- **The verdict on a group of minterms**: its region, or why there is
none. -/
abbrev Verdict := Except ShapeFault Region

namespace Region

/-- The region with given rows and columns. -/
def ofSpans (rows cols : AxisSpan) : Region :=
  match rows.isWrapped, cols.isWrapped with
  | true, true => wrappedBoth rows cols
  | true, false => wrappedRows rows cols
  | false, true => wrappedCols rows cols
  | false, false => rectangle rows cols

/-- The rows of the region. -/
def rows : Region → AxisSpan
  | rectangle rows _ | wrappedRows rows _ | wrappedCols rows _ | wrappedBoth rows _ => rows

/-- The columns of the region. -/
def cols : Region → AxisSpan
  | rectangle _ cols | wrappedRows _ cols | wrappedCols _ cols | wrappedBoth _ cols => cols

/-- **Counts the cells of a region**, when each result on the way is fitted into a
word. -/
def cellCountBy {m : Type → Type} [Monad m] (fit : Int → m Nat) (region : Region) : m Nat := do
  let rows ← region.rows.lengthBy fit
  let cols ← region.cols.lengthBy fit
  fit (rows * cols)

/-- How many cells the region has, unless the count stops before its end. -/
def cellCount? (region : Region) : Option Nat := region.cellCountBy Word.checked

/-- How many cells the region has, in a count that does not stop. -/
def cellCount (region : Region) : Nat :=
  Id.run (region.cellCountBy fun result => pure (Word.wrapped result))

/-- The name of the kind of region. -/
def kind : Region → String
  | rectangle .. => "rectangle"
  | wrappedRows .. => "wrapped rows"
  | wrappedCols .. => "wrapped columns"
  | wrappedBoth .. => "four corners"

/-- Whether a number is a power of two. -/
def isPowerOfTwo (n : Nat) : Bool :=
  n != 0 && n &&& (n - 1) == 0

/-- **The region of a group of minterms**, in any order and with
repetitions. -/
def classify (layout : Layout) (minterms : List Nat) : Verdict := do
  if let some m := minterms.find? fun m => layout.cellCount ≤ m then
    throw (.mintermOutOfRange m)
  let cells := (ascending minterms).map layout.cellOf
  let count := cells.length
  if count = 0 then
    throw .empty
  if !isPowerOfTwo count then
    throw (.notPowerOfTwo count)
  if layout.cellCount < count then
    throw (.tooLarge count layout.cellCount)
  let rows := ascending (cells.map Cell.row)
  let cols := ascending (cells.map Cell.col)
  let some rowSpan := AxisSpan.classify rows layout.rows
    | throw .nonContiguousRows
  let some colSpan := AxisSpan.classify cols layout.cols
    | throw .nonContiguousCols
  if count ≠ rows.length * cols.length then
    throw (.incompleteBoundingBox count rows.length cols.length)
  return ofSpans rowSpan colSpan

end Region

namespace Verdict

/-- The name of the kind of verdict. -/
def kind : Verdict → String
  | .ok region => region.kind
  | .error _ => "invalid"

/-- The verdict on `minterms` as the answer or error of an operation. -/
def toResult (verdict : Verdict) (minterms : List Nat) : Except MapError Region :=
  verdict.mapError (.invalidGroupShape minterms)

end Verdict

end Karnaugh
