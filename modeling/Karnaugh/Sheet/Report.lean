import Karnaugh.Grid.Table
import Karnaugh.Sheet.Basic

/-!
# Reports

The report of a sheet is what a person reads: the problem, its map with the
loops, what could not be drawn, and the legend.
-/

namespace Karnaugh

/-- The legend's line for a term: its number, the term, its color and the
minterms. -/
def LegendEntry.toText (e : LegendEntry) : String :=
  "  " ++ Text.numeral (e.index + 1) ++ ". " ++ Text.padRight 8 e.term ++ " " ++ e.color
    ++ " covers " ++ Text.numerals ", " e.minterms

/-- What is said of an implicant that was skipped. -/
def Skipped.toText (s : Skipped) : String :=
  "Skipped implicant " ++ Text.numeral (s.index + 1) ++ " (" ++ s.pattern.toText ++ "): "
    ++ s.error.message ++ "\n"

namespace Sheet

variable (s : Sheet)

/-- **The legend**: the expression and a line for each of its terms. -/
def legendText : String :=
  "\n".intercalate (("F = " ++ s.expression) :: s.legend.map LegendEntry.toText)

/-- The problem in words. -/
def problemText : String :=
  "=== " ++ Text.numeral s.numVars ++ "-variable map ===\n"
    ++ "Minterms:    " ++ Text.numerals ", " s.minterms ++ "\n"
    ++ (if s.dontCares.isEmpty then ""
      else "Don't cares: " ++ Text.numerals ", " s.dontCares ++ "\n")
    ++ "\n"

/-- The loops of the map, and what was skipped. -/
def drawingText (grid : Grid) (drawing : Drawing) : String :=
  (if drawing.loops.isEmpty then ""
    else "Loops:\n" ++ drawing.membership grid.layout ++ "\n")
    ++ String.join (drawing.skipped.map Skipped.toText)

/-- The map and its loops. -/
def mapText : String :=
  match s.grid with
  | none => "(no grid drawn beyond four variables)\n\n"
  | some grid =>
    grid.table ++ "\n" ++ ((s.drawing.map (drawingText grid)).getD "")

/-- **The report of a sheet.** -/
def report : String :=
  s.problemText ++ s.mapText ++ s.legendText ++ "\n"

end Sheet

end Karnaugh
