import Karnaugh.Region.Basic
import Karnaugh.Shape.Basic

/-!
# From regions to shapes

A region is cut where it crosses the edges of the map. `Region.pieces`
does the cutting, in terms of rows and columns alone; `Piece.shape` then
puts a padded box around each piece, from the upper left cell to the lower
right one. A geometry that lacks one of the two cells is an error.
-/

namespace Karnaugh

/-- **A piece of a region**: contiguous rows and columns, by the first and
last index of each. -/
structure Piece where
  /-- How the region was cut to get the piece. -/
  cut : Cut
  /-- The first and the last row. -/
  rows : Nat × Nat
  /-- The first and the last column. -/
  cols : Nat × Nat
  deriving DecidableEq, Repr

/-- **The pieces of a region**: one, two or four, from the top and from
the left. -/
def Region.pieces : Region → List Piece
  | .rectangle rows cols => [⟨.whole, rows.hull, cols.hull⟩]
  | .wrappedRows rows cols =>
    [⟨.half .top, rows.firstSegment, cols.hull⟩,
      ⟨.half .bottom, rows.lastSegment, cols.hull⟩]
  | .wrappedCols rows cols =>
    [⟨.half .left, rows.hull, cols.firstSegment⟩,
      ⟨.half .right, rows.hull, cols.lastSegment⟩]
  | .wrappedBoth rows cols =>
    [⟨.quarter .topLeft, rows.firstSegment, cols.firstSegment⟩,
      ⟨.quarter .topRight, rows.firstSegment, cols.lastSegment⟩,
      ⟨.quarter .bottomLeft, rows.lastSegment, cols.firstSegment⟩,
      ⟨.quarter .bottomRight, rows.lastSegment, cols.lastSegment⟩]

/-- The box of a cell, which the geometry must have. -/
def Geometry.require (geometry : Geometry) (cell : Cell) : Except MapError Box :=
  match geometry cell with
  | some box => .ok box
  | none => .error (.missingCellGeometry cell)

namespace Piece

/-- The upper left cell of a piece. -/
def topLeft (piece : Piece) : Cell := ⟨piece.rows.1, piece.cols.1⟩

/-- The lower right cell of a piece. -/
def bottomRight (piece : Piece) : Cell := ⟨piece.rows.2, piece.cols.2⟩

/-- The box that leaves a padding around everything between two boxes. -/
def around (padding : Float) (first last : Box) : Box :=
  { x := first.x - padding
    y := first.y - padding
    width := last.right - first.x + 2 * padding
    height := last.bottom - first.y + 2 * padding }

/-- **The shape of a piece.** -/
def shape (geometry : Geometry) (style : LoopStyle) (piece : Piece) :
    Except MapError Shape := do
  let first ← geometry.require piece.topLeft
  let last ← geometry.require piece.bottomRight
  return ⟨piece.cut, around style.padding first last, style.cornerRadius⟩

end Piece

/-- **The shapes of a region**, in the order of its pieces. -/
def Region.shapes (geometry : Geometry) (style : LoopStyle) (region : Region) :
    Except MapError (List Shape) :=
  region.pieces.mapM (Piece.shape geometry style)

/-- The shapes of a group of minterms, given the verdict on it. -/
def Verdict.shapes (geometry : Geometry) (style : LoopStyle) (verdict : Verdict) :
    Except MapError (List Shape) := do
  (← verdict.toResult []).shapes geometry style

end Karnaugh
