import Karnaugh.Drawing
import Karnaugh.Minimize.Basic

/-!
# Settings

Settings say how problems are solved, drawn and put out. Whatever is read
from a file is checked before it is used: lengths must not be negative,
some must be positive, and there must be a color to draw with.
-/

namespace Karnaugh

/-- **Where cells are drawn.** -/
structure GeometrySettings where
  /-- The left side of the map. -/
  originX : Float
  /-- The upper side of the map. -/
  originY : Float
  /-- The width of a cell. -/
  cellWidth : Float
  /-- The height of a cell. -/
  cellHeight : Float
  /-- The space between two cells. -/
  gap : Float
  deriving BEq

/-- **How loops are drawn.** -/
structure LoopSettings where
  /-- How far outside the cells a loop runs. -/
  padding : Float
  /-- The radius of its corners. -/
  cornerRadius : Float
  /-- The width of its line. -/
  strokeWidth : Float
  /-- The colors. -/
  palette : List String
  deriving BEq

/-- **How problems are solved.** -/
structure SolverSettings where
  /-- The number of candidates up to which covers are exact. -/
  exactCoverLimit : Nat
  /-- Whether implicants are compared with their patterns. -/
  crossCheck : Bool
  deriving DecidableEq, Repr

/-- **The format of a result.** -/
inductive OutputFormat where
  /-- A report for reading. -/
  | text
  /-- Everything, for other programs. -/
  | json
  /-- A picture. -/
  | svg
  deriving DecidableEq, Repr

/-- The name of a format, which also ends the names of its files. -/
def OutputFormat.name : OutputFormat → String
  | .text => "text"
  | .json => "json"
  | .svg => "svg"

/-- The format of a name. -/
def OutputFormat.ofName? (name : String) : Option OutputFormat :=
  [OutputFormat.text, .json, .svg].find? fun format => format.name == name

/-- **How results are put out.** -/
structure OutputSettings where
  /-- The format. -/
  format : OutputFormat
  /-- Where files go. -/
  directory : String
  deriving DecidableEq, Repr

/-- **Settings.** -/
structure Settings where
  /-- Where cells are drawn. -/
  geometry : GeometrySettings
  /-- How loops are drawn. -/
  loops : LoopSettings
  /-- How problems are solved. -/
  solver : SolverSettings
  /-- How results are put out. -/
  output : OutputSettings
  deriving BEq

/-- **Settings that override others**, where they are given. -/
structure Overrides where
  /-- Another limit. -/
  exactCoverLimit : Option Nat
  /-- Not to compare implicants with their patterns. -/
  noCrossCheck : Bool
  /-- Another format. -/
  format : Option OutputFormat
  /-- Another place for files. -/
  directory : Option String
  deriving DecidableEq, Repr

/-- **Why settings are refused.** -/
inductive SettingsFault where
  /-- A cell has no width or no height. -/
  | cellSize
  /-- Cells overlap. -/
  | gap
  /-- Loops run inside their cells, or have corners of negative radius. -/
  | loopSize
  /-- Lines have no width. -/
  | strokeWidth
  /-- There is no color. -/
  | palette
  deriving DecidableEq, Repr

/-- The fault in words. -/
def SettingsFault.message : SettingsFault → String
  | .cellSize => "Cell width and height must be positive"
  | .gap => "Cell gap must not be negative"
  | .loopSize => "Loop padding and corner radius must not be negative"
  | .strokeWidth => "Loop stroke width must be positive"
  | .palette => "Loop palette must contain at least one color"

namespace Settings

/-- **The settings used unless others are chosen.** -/
def standard : Settings where
  geometry := ⟨60, 60, 60, 60, 4⟩
  loops := ⟨6, 12, 4, standardPalette⟩
  solver := ⟨standardExactLimit, true⟩
  output := ⟨.text, "output"⟩

variable (s : Settings)

/-- **Refuses settings** that nothing can be drawn with. What is no number
passes, as it is neither negative nor zero. -/
def check : Except SettingsFault Unit := do
  if s.geometry.cellWidth ≤ 0 ∨ s.geometry.cellHeight ≤ 0 then throw .cellSize
  if s.geometry.gap < 0 then throw .gap
  if s.loops.padding < 0 ∨ s.loops.cornerRadius < 0 then throw .loopSize
  if s.loops.strokeWidth ≤ 0 then throw .strokeWidth
  if s.loops.palette.isEmpty then throw .palette

/-- The settings with others in their place. -/
def override (o : Overrides) : Settings :=
  { s with
    solver := ⟨o.exactCoverLimit.getD s.solver.exactCoverLimit,
      s.solver.crossCheck && !o.noCrossCheck⟩
    output := ⟨o.format.getD s.output.format, o.directory.getD s.output.directory⟩ }

/-- Where the cells of a layout are drawn. -/
def geometryFor (layout : Layout) : UniformGeometry where
  originX := s.geometry.originX
  originY := s.geometry.originY
  cellWidth := s.geometry.cellWidth
  cellHeight := s.geometry.cellHeight
  gap := s.geometry.gap
  rows := layout.rows
  cols := layout.cols

/-- How loops run around their cells. -/
def loopStyle : LoopStyle := ⟨s.loops.padding, s.loops.cornerRadius⟩

/-- What the map of a layout is drawn on. -/
def canvasFor (layout : Layout) : Canvas where
  layout
  geometry := (s.geometryFor layout).boxOf
  style := s.loopStyle
  palette := s.loops.palette
  crossCheck := s.solver.crossCheck

/-- The way problems are solved. -/
def minimizer : Solver := minimize s.solver.exactCoverLimit

end Settings

end Karnaugh
