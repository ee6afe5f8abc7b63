import Karnaugh.Decimal.Fixed
import Karnaugh.Settings.Basic
import Karnaugh.Shape.Outline
import Karnaugh.Sheet.Basic

/-!
# Pictures

The picture of a sheet shows the map with the values of its variables, the
loops as colored outlines with their terms as titles, and the expression
below. It is an SVG document, a line per element. Colors, terms and the
expression stand in it as they are.

A sheet without a map has no picture.
-/

namespace Karnaugh.Svg

/-- An attribute that is a number. -/
def quantity (name : String) (x : Float) : String :=
  name ++ "=\"" ++ Decimal.plain x ++ "\""

/-- A line of text that starts at a point. -/
def label (x y : Float) (size : Nat) (content : String) : String :=
  "  <text " ++ quantity "x" x ++ " " ++ quantity "y" y ++ " font-size=\""
    ++ Text.numeral size ++ "\">" ++ content ++ "</text>\n"

/-- A line of text whose middle is at a point. -/
def centered (x y : Float) (size : Nat) (content : String) : String :=
  "  <text " ++ quantity "x" x ++ " " ++ quantity "y" y ++ " font-size=\""
    ++ Text.numeral size ++ "\" text-anchor=\"middle\">" ++ content ++ "</text>\n"

/-- The frame of a cell. -/
def frame (b : Box) : String :=
  "  <rect " ++ quantity "x" b.x ++ " " ++ quantity "y" b.y ++ " "
    ++ quantity "width" b.width ++ " " ++ quantity "height" b.height
    ++ " fill=\"#ffffff\" stroke=\"#cccccc\"/>\n"

/-- The first line of a document of a given size. -/
def opening (width height : Float) : String :=
  "<svg xmlns=\"http://www.w3.org/2000/svg\" " ++ quantity "width" width ++ " "
    ++ quantity "height" height ++ " viewBox=\"0 0 " ++ Decimal.plain width ++ " "
    ++ Decimal.plain height ++ "\" font-family=\"monospace\">\n"

/-- A loop: its color and strength, its term as title, and a path for each
of its shapes. -/
def loopGroup (strokeWidth : Float) (loop : Loop) : String :=
  "  <g stroke=\"" ++ loop.color ++ "\" " ++ quantity "stroke-width" strokeWidth
    ++ " fill=\"none\" opacity=\"" ++ Decimal.fixed 2 (loop.emphasis + 0.3) ++ "\">\n"
    ++ "    <title>" ++ loop.term ++ "</title>\n"
    ++ String.join (loop.shapes.map fun shape =>
      "    <path d=\"" ++ shape.pathData ++ "\"/>\n")
    ++ "  </g>\n"

variable (settings : Settings) (grid : Grid)

/-- The labels above the columns. -/
def columnLabels : String :=
  let boxOf := (settings.geometryFor grid.layout).boxOf
  String.join <| (List.range grid.layout.cols).map fun col =>
    match boxOf ⟨0, col⟩ with
    | none => ""
    | some b =>
      centered (b.x + b.width / 2) (settings.geometry.originY / 2) 14 (grid.layout.colLabel col)

/-- A cell: its frame and its symbol, and before the first of a row the
label of the row. -/
def cellElements (cell : Cell) : String :=
  match (settings.geometryFor grid.layout).boxOf cell with
  | none => ""
  | some b =>
    let rowLabel :=
      if cell.col = 0 then
        centered (settings.geometry.originX / 2) (b.y + b.height / 2 + 5) 14
          (grid.layout.rowLabel cell.row)
      else ""
    rowLabel ++ frame b
      ++ centered (b.x + b.width / 2) (b.y + b.height / 2 + 6) 18
        (String.singleton (grid.stateAt cell).symbol)

/-- The width of the picture. -/
def width : Float :=
  2 * settings.geometry.originX
    + Float.ofNat grid.layout.cols * (settings.geometry.cellWidth + settings.geometry.gap)

/-- The height of the picture, with a line below the map. -/
def height : Float :=
  2 * settings.geometry.originY
    + Float.ofNat grid.layout.rows * (settings.geometry.cellHeight + settings.geometry.gap) + 30

end Svg

open Svg in
/-- **The picture of a sheet** that has a map. -/
def Sheet.svg? (sheet : Sheet) (settings : Settings) : Option String := do
  let grid ← sheet.grid
  let loops := (sheet.drawing.map Drawing.loops).getD []
  let corner := grid.layout.rowVariables ++ "\\" ++ grid.layout.colVariables
  return opening (width settings grid) (height settings grid)
    ++ label (settings.geometry.originX / 4) (settings.geometry.originY / 2) 14 corner
    ++ columnLabels settings grid
    ++ String.join (grid.layout.cells.map (cellElements settings grid))
    ++ String.join (loops.map (loopGroup settings.loops.strokeWidth))
    ++ label (settings.geometry.originX / 4) (height settings grid - 12) 16
      ("F = " ++ sheet.expression)
    ++ "</svg>\n"

end Karnaugh
