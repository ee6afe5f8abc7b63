import Karnaugh.Document.Basic
import Karnaugh.Settings.Basic
import Karnaugh.Sheet.Basic

/-!
# What is kept, as documents

Each type that is written to files has a form as a document. Names are in
lower case with underscores. A choice is written as its name, or, where it
has parts, as a record with the name under a field of its own.

A layout and a grid also have a **stored form** of their own, because a
file may say of them what no layout and no grid can be.
-/

namespace Karnaugh

/-- **A layout as it is kept**, with its numbers unchecked. -/
structure StoredLayout where
  /-- The number of variables. -/
  numVars : Nat
  /-- How many of them select the row. -/
  rowBits : Nat
  /-- How many of them select the column. -/
  colBits : Nat
  deriving DecidableEq, Repr

/-- **A grid as it is kept**, with its cells uncounted. -/
structure StoredGrid where
  /-- The layout. -/
  layout : StoredLayout
  /-- The states of the cells. -/
  cells : List CellState
  deriving DecidableEq, Repr

/-- What is kept of a layout. -/
def Layout.toStored (layout : Layout) : StoredLayout :=
  ⟨layout.numVars, layout.rowBits, layout.colBits⟩

/-- What is kept of a grid. -/
def Grid.toStored (g : Grid) : StoredGrid := ⟨g.layout.toStored, g.cells⟩

/-- The name of a cell state. -/
def CellState.name : CellState → String
  | off => "off"
  | on => "on"
  | dontCare => "dont_care"

/-- The name of a side. -/
def Side.name : Side → String
  | top => "top"
  | right => "right"
  | bottom => "bottom"
  | left => "left"

/-- The name of a corner. -/
def Corner.name : Corner → String
  | topLeft => "top_left"
  | topRight => "top_right"
  | bottomLeft => "bottom_left"
  | bottomRight => "bottom_right"

namespace Document

/-- A pattern is written as its text. -/
def ofPattern (p : Pattern) : Document := .text p.toText

/-- The document of a literal. -/
def ofLiteral (l : Literal) : Document :=
  .record [("variable", .nat l.position), ("negated", .bool l.negated)]

/-- The document of a cell. -/
def ofCell (cell : Cell) : Document :=
  .record [("row", .nat cell.row), ("col", .nat cell.col)]

/-- The document of a layout. -/
def ofLayout (layout : StoredLayout) : Document :=
  .record [("num_vars", .nat layout.numVars), ("row_bits", .nat layout.rowBits),
    ("col_bits", .nat layout.colBits)]

/-- A cell state is written as its name. -/
def ofCellState (state : CellState) : Document := .text state.name

/-- The document of a grid. -/
def ofGrid (g : StoredGrid) : Document :=
  .record [("layout", ofLayout g.layout), ("cells", .list (g.cells.map ofCellState))]

/-- The document of a problem. An expression is written only if there is
one. -/
def ofSpec (spec : Spec) : Document :=
  .record <|
    [("num_vars", .nat spec.numVars), ("minterms", nats spec.minterms),
      ("dont_cares", nats spec.dontCares)]
    ++ (spec.expression.map fun e => ("expression", .text e)).toList

/-- The document of a request. -/
def ofRequest (r : Request) : Document :=
  .record [("num_vars", .nat r.numVars), ("minterms", nats r.minterms),
    ("dont_cares", nats r.dontCares)]

/-- The document of an implicant. -/
def ofImplicant (i : Implicant) : Document :=
  .record [("pattern", ofPattern i.pattern), ("covered_minterms", nats i.minterms)]

/-- The document of a span of time. -/
def ofDuration (d : Duration) : Document :=
  .record [("secs", .nat d.secs), ("nanos", .nat d.nanos)]

/-- The document of statistics, with a span of time given as a document. -/
def ofStatisticsAt (time : Document) (s : Statistics) : Document :=
  .record [("prime_count", .nat s.primeCount), ("essential_count", .nat s.essentialCount),
    ("exact_cover", .bool s.exactCover), ("solve_time", time)]

/-- The document of statistics. -/
def ofStatistics (s : Statistics) : Document := ofStatisticsAt (ofDuration s.solveTime) s

/-- The document of an answer. -/
def ofAnswer (a : Answer) : Document :=
  .record [("expression", .text a.expression),
    ("implicants", .list (a.implicants.map ofImplicant)),
    ("prime_implicants", .list (a.primes.map ofImplicant)),
    ("statistics", ofStatistics a.statistics)]

/-- The document of a span of an axis. -/
def ofSpan : AxisSpan → Document
  | .run first last => .record [("kind", .text "run"), ("start", .nat first), ("end", .nat last)]
  | .wrap headEnd tailStart extent =>
    .record [("kind", .text "wrap"), ("head_end", .nat headEnd),
      ("tail_start", .nat tailStart), ("extent", .nat extent)]

/-- The document of a reason why a group is no region. -/
def ofShapeFault : ShapeFault → Document
  | .empty => .text "empty"
  | .notPowerOfTwo count => .record [("not_power_of_two", .record [("count", .nat count)])]
  | .tooLarge count capacity =>
    .record [("too_large", .record [("count", .nat count), ("capacity", .nat capacity)])]
  | .nonContiguousRows => .text "non_contiguous_rows"
  | .nonContiguousCols => .text "non_contiguous_cols"
  | .incompleteBoundingBox count rows cols =>
    .record [("incomplete_bounding_box",
      .record [("count", .nat count), ("rows", .nat rows), ("cols", .nat cols)])]
  | .mintermOutOfRange minterm => .record [("minterm_out_of_range", .nat minterm)]

/-- The name of a kind of region in a file. -/
def regionKind : Region → String
  | .rectangle .. => "rectangle"
  | .wrappedRows .. => "wrapped_rows"
  | .wrappedCols .. => "wrapped_cols"
  | .wrappedBoth .. => "wrapped_both"

/-- The document of a region. -/
def ofRegion (region : Region) : Document :=
  .record [("kind", .text (regionKind region)), ("rows", ofSpan region.rows),
    ("cols", ofSpan region.cols)]

/-- The document of a verdict. -/
def ofVerdict : Verdict → Document
  | .ok region => ofRegion region
  | .error fault => .record [("kind", .text "invalid"), ("reason", ofShapeFault fault)]

/-- The fields of a box. -/
def boxFields (b : Box) : List (String × Document) :=
  [("x", .float b.x), ("y", .float b.y), ("width", .float b.width), ("height", .float b.height)]

/-- The document of a box. -/
def ofBox (b : Box) : Document := .record (boxFields b)

/-- The document of equal cells. -/
def ofUniformGeometry (u : UniformGeometry) : Document :=
  .record [("origin_x", .float u.originX), ("origin_y", .float u.originY),
    ("cell_width", .float u.cellWidth), ("cell_height", .float u.cellHeight),
    ("gap", .float u.gap), ("rows", .nat u.rows), ("cols", .nat u.cols)]

/-- The document of a loop style. -/
def ofLoopStyle (style : LoopStyle) : Document :=
  .record [("padding", .float style.padding), ("corner_radius", .float style.cornerRadius)]

/-- The fields that say how a piece was cut. -/
def cutFields : Cut → List (String × Document)
  | .whole => []
  | .half side => [("open_side", .text side.name)]
  | .quarter corner => [("corner", .text corner.name)]

/-- The document of a shape. -/
def ofShape (s : Shape) : Document :=
  .record <| ("shape", .text s.kind) :: cutFields s.cut ++ boxFields s.bounds
    ++ [("corner_radius", .float s.cornerRadius)]

/-- The document of a loop. -/
def ofLoop (l : Loop) : Document :=
  .record [("index", .nat l.index), ("color_index", .nat l.colorIndex),
    ("color", .text l.color), ("emphasis", .float l.emphasis),
    ("pattern", ofPattern l.pattern), ("term", .text l.term), ("minterms", nats l.minterms),
    ("region", ofRegion l.region), ("shapes", .list (l.shapes.map ofShape))]

/-- The document of an implicant that was skipped. -/
def ofSkipped (s : Skipped) : Document :=
  .record [("implicant_index", .nat s.index), ("pattern", ofPattern s.pattern),
    ("message", .text s.error.message)]

/-- The document of a drawing. -/
def ofDrawing (d : Drawing) : Document :=
  .record [("loops", .list (d.loops.map ofLoop)),
    ("diagnostics", .list (d.skipped.map ofSkipped))]

/-- The document of a line of the legend. -/
def ofLegendEntry (e : LegendEntry) : Document :=
  .record [("index", .nat e.index), ("term", .text e.term), ("pattern", ofPattern e.pattern),
    ("color", .text e.color), ("minterms", nats e.minterms)]

/-- The document of a sheet, with the time its solution took given as a
document. -/
def ofSheetAt (time : Document) (s : Sheet) : Document :=
  .record [("num_vars", .nat s.numVars), ("minterms", nats s.minterms),
    ("dont_cares", nats s.dontCares), ("expression", .text s.expression),
    ("legend", .list (s.legend.map ofLegendEntry)),
    ("prime_implicants", .list (s.primes.map ofImplicant)),
    ("grid", ofOption (s.grid.map fun g => ofGrid g.toStored)),
    ("render", ofOption (s.drawing.map ofDrawing)),
    ("statistics", ofStatisticsAt time s.statistics)]

/-- The document of a sheet. -/
def ofSheet (s : Sheet) : Document := ofSheetAt (ofDuration s.statistics.solveTime) s

/-- The document of the settings for cells. -/
def ofGeometrySettings (g : GeometrySettings) : Document :=
  .record [("origin_x", .float g.originX), ("origin_y", .float g.originY),
    ("cell_width", .float g.cellWidth), ("cell_height", .float g.cellHeight),
    ("gap", .float g.gap)]

/-- The document of the settings for loops. -/
def ofLoopSettings (l : LoopSettings) : Document :=
  .record [("padding", .float l.padding), ("corner_radius", .float l.cornerRadius),
    ("stroke_width", .float l.strokeWidth), ("palette", .list (l.palette.map .text))]

/-- The document of the settings for solving. -/
def ofSolverSettings (s : SolverSettings) : Document :=
  .record [("exact_cover_limit", .nat s.exactCoverLimit), ("cross_check", .bool s.crossCheck)]

/-- The document of the settings for output. -/
def ofOutputSettings (o : OutputSettings) : Document :=
  .record [("format", .text o.format.name), ("output_directory", .text o.directory)]

/-- The document of settings. -/
def ofSettings (s : Settings) : Document :=
  .record [("geometry", ofGeometrySettings s.geometry), ("loops", ofLoopSettings s.loops),
    ("solver", ofSolverSettings s.solver), ("output", ofOutputSettings s.output)]

end Document

end Karnaugh
