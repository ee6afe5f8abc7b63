import Karnaugh.Decimal.Style
import Karnaugh.Shape.Basic

/-!
# Outlines

The outline of a shape is a line drawn with a pen: the pen is set down
once, runs straight along the sides that are drawn and around the corners
between them, and comes back to where it started only if no side is open.

A corner is taken as a curve that leaves one side a radius before the corner and meets
the other a radius after it, with the corner itself as control point. Which sides are drawn depends on how a loop was cut, and for each of the
nine ways the outline is written out in full, with a start and a direction of its own
(`Shape.outline`). `Shape.pathData` is the text of the strokes.
-/

namespace Karnaugh

/-- **A point** of the drawing. -/
structure Point where
  /-- The distance from the left. -/
  x : Float
  /-- The distance from the top. -/
  y : Float

/-- **One movement of the pen.** -/
inductive Stroke where
  /-- The pen is set down at a point. -/
  | move (point : Point)
  /-- A straight line to a point. -/
  | line (point : Point)
  /-- A curve to a point, drawn towards the control point. -/
  | curve (control point : Point)
  /-- A straight line back to where the pen was set down. -/
  | close

/-- **The outline of a shape**, in the coordinates of its box. -/
def Shape.outline (s : Shape) : List Stroke :=
  let ⟨x, y, w, h⟩ := s.bounds
  let r := s.cornerRadius
  match s.cut with
  | .whole =>
    [.move ⟨x + r, y⟩, .line ⟨x + w - r, y⟩, .curve ⟨x + w, y⟩ ⟨x + w, y + r⟩,
      .line ⟨x + w, y + h - r⟩, .curve ⟨x + w, y + h⟩ ⟨x + w - r, y + h⟩,
      .line ⟨x + r, y + h⟩, .curve ⟨x, y + h⟩ ⟨x, y + h - r⟩,
      .line ⟨x, y + r⟩, .curve ⟨x, y⟩ ⟨x + r, y⟩, .close]
  | .half .top =>
    [.move ⟨x, y⟩, .line ⟨x, y + h - r⟩, .curve ⟨x, y + h⟩ ⟨x + r, y + h⟩,
      .line ⟨x + w - r, y + h⟩, .curve ⟨x + w, y + h⟩ ⟨x + w, y + h - r⟩, .line ⟨x + w, y⟩]
  | .half .bottom =>
    [.move ⟨x + w, y + h⟩, .line ⟨x + w, y + r⟩, .curve ⟨x + w, y⟩ ⟨x + w - r, y⟩,
      .line ⟨x + r, y⟩, .curve ⟨x, y⟩ ⟨x, y + r⟩, .line ⟨x, y + h⟩]
  | .half .left =>
    [.move ⟨x, y + h⟩, .line ⟨x + w - r, y + h⟩, .curve ⟨x + w, y + h⟩ ⟨x + w, y + h - r⟩,
      .line ⟨x + w, y + r⟩, .curve ⟨x + w, y⟩ ⟨x + w - r, y⟩, .line ⟨x, y⟩]
  | .half .right =>
    [.move ⟨x + w, y⟩, .line ⟨x + r, y⟩, .curve ⟨x, y⟩ ⟨x, y + r⟩,
      .line ⟨x, y + h - r⟩, .curve ⟨x, y + h⟩ ⟨x + r, y + h⟩, .line ⟨x + w, y + h⟩]
  | .quarter .topLeft =>
    [.move ⟨x + w, y⟩, .line ⟨x + r, y⟩, .curve ⟨x, y⟩ ⟨x, y + r⟩, .line ⟨x, y + h⟩]
  | .quarter .topRight =>
    [.move ⟨x, y⟩, .line ⟨x + w - r, y⟩, .curve ⟨x + w, y⟩ ⟨x + w, y + r⟩,
      .line ⟨x + w, y + h⟩]
  | .quarter .bottomLeft =>
    [.move ⟨x, y⟩, .line ⟨x, y + h - r⟩, .curve ⟨x, y + h⟩ ⟨x + r, y + h⟩,
      .line ⟨x + w, y + h⟩]
  | .quarter .bottomRight =>
    [.move ⟨x + w, y⟩, .line ⟨x + w, y + h - r⟩, .curve ⟨x + w, y + h⟩ ⟨x + w - r, y + h⟩,
      .line ⟨x, y + h⟩]

/-- A point as the two numbers of a path. -/
def Point.toText (p : Point) : String :=
  Decimal.plain p.x ++ " " ++ Decimal.plain p.y

/-- A stroke as a command of a path. -/
def Stroke.toText : Stroke → String
  | .move point => "M " ++ point.toText
  | .line point => "L " ++ point.toText
  | .curve control point => "Q " ++ control.toText ++ " " ++ point.toText
  | .close => "Z"

/-- **The outline of a shape as path data.** -/
def Shape.pathData (s : Shape) : String :=
  " ".intercalate (s.outline.map Stroke.toText)

end Karnaugh
