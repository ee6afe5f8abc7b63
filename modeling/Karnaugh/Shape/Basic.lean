import Karnaugh.Error

/-!
# Shapes

A loop on the map is drawn as one shape or several. Each is a box with
rounded corners, and what tells them apart is how the loop was **cut** at
the edges of the map: not at all, into halves that are open towards the
edge they cross, or into quarters that show one corner only.

Cells come with boxes of their own, from a **geometry**: a function that
knows the box of each cell it has a place for. The usual geometry sets out
equal cells from an origin.
-/

namespace Karnaugh

/-- **A box** with sides along the axes, in drawing units. -/
structure Box where
  /-- The left side. -/
  x : Float
  /-- The upper side. -/
  y : Float
  /-- The distance to the right side. -/
  width : Float
  /-- The distance to the lower side. -/
  height : Float

namespace Box

/-- The right side. -/
def right (b : Box) : Float := b.x + b.width

/-- The lower side. -/
def bottom (b : Box) : Float := b.y + b.height

end Box

/-- **Where the cells are**: the box of each cell that has one. -/
abbrev Geometry := Cell → Option Box

/-- **Equal cells** at equal distances from an origin. -/
structure UniformGeometry where
  /-- The left side of the first column. -/
  originX : Float
  /-- The upper side of the first row. -/
  originY : Float
  /-- The width of a cell. -/
  cellWidth : Float
  /-- The height of a cell. -/
  cellHeight : Float
  /-- The space between two cells. -/
  gap : Float
  /-- The number of rows. -/
  rows : Nat
  /-- The number of columns. -/
  cols : Nat

/-- The box of a cell, if it is among the rows and columns. -/
def UniformGeometry.boxOf (u : UniformGeometry) : Geometry := fun cell =>
  if u.rows ≤ cell.row ∨ u.cols ≤ cell.col then none
  else some
    { x := u.originX + Float.ofNat cell.col * (u.cellWidth + u.gap)
      y := u.originY + Float.ofNat cell.row * (u.cellHeight + u.gap)
      width := u.cellWidth
      height := u.cellHeight }

/-- **A table of boxes**, where a later entry for a cell counts more than
an earlier one. -/
def Geometry.ofTable (table : List (Cell × Box)) : Geometry := fun cell =>
  (table.reverse.find? fun entry => entry.1 = cell).map Prod.snd

/-- **How loops are drawn** around their cells. -/
structure LoopStyle where
  /-- How far outside the cells a loop runs. -/
  padding : Float
  /-- The radius of its corners. -/
  cornerRadius : Float

/-- The style used unless another is chosen. -/
def LoopStyle.standard : LoopStyle := ⟨6, 12⟩

/-- **A side of a box.** -/
inductive Side where
  /-- The upper side. -/
  | top
  /-- The right side. -/
  | right
  /-- The lower side. -/
  | bottom
  /-- The left side. -/
  | left
  deriving DecidableEq, Repr

/-- **A corner of a box.** -/
inductive Corner where
  /-- The upper left corner. -/
  | topLeft
  /-- The upper right corner. -/
  | topRight
  /-- The lower left corner. -/
  | bottomLeft
  /-- The lower right corner. -/
  | bottomRight
  deriving DecidableEq, Repr

/-- The two sides that do not meet in a corner: they face the centre of
the map when the corner is one of the map's. -/
def Corner.innerSides : Corner → List Side
  | .topLeft => [.bottom, .right]
  | .topRight => [.bottom, .left]
  | .bottomLeft => [.top, .right]
  | .bottomRight => [.top, .left]

/-- **How a loop was cut** where it crosses the edges of the map. -/
inductive Cut where
  /-- It crosses none: the outline is closed. -/
  | whole
  /-- It crosses two opposite edges: a half is open on one side. -/
  | half (openSide : Side)
  /-- It crosses all edges: a quarter shows the sides of one corner. -/
  | quarter (corner : Corner)
  deriving DecidableEq, Repr

/-- The sides of a piece that are not drawn. -/
def Cut.openSides : Cut → List Side
  | .whole => []
  | .half side => [side]
  | .quarter corner => corner.innerSides

/-- The name of a kind of shape. -/
def Cut.kind : Cut → String
  | .whole => "rounded_rect"
  | .half _ => "open_sided_path"
  | .quarter _ => "corner_fragment"

/-- **A shape**: one drawable piece of a loop. -/
structure Shape where
  /-- Which of its sides are drawn. -/
  cut : Cut
  /-- Its box. -/
  bounds : Box
  /-- The radius of the corners between drawn sides. -/
  cornerRadius : Float

namespace Shape

/-- The sides that are not drawn. -/
def openSides (s : Shape) : List Side := s.cut.openSides

/-- The name of the kind of shape. -/
def kind (s : Shape) : String := s.cut.kind

end Shape

end Karnaugh
