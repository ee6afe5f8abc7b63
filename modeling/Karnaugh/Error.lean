import Karnaugh.Pattern.Basic
import Karnaugh.Text.Quoted

/-!
# What can go wrong with a map

Every operation on maps, expressions and covers answers or says why it
cannot. The reasons are values: a `MapError` names the cause and the
things involved, and `MapError.message` puts it into words.

Two of them are **recoverable**: a group of minterms that cannot be drawn
as a loop, and a term that does not cover what is said of it. A drawing
skips such a group and goes on; anything else ends it.
-/

namespace Karnaugh

/-- **A cell of a map**, by its row and column. -/
structure Cell where
  /-- The row, counted from zero at the top. -/
  row : Nat
  /-- The column, counted from zero at the left. -/
  col : Nat
  deriving DecidableEq, Repr

/-- The cell as text, `(row, column)`. -/
def Cell.toText (cell : Cell) : String :=
  s!"({cell.row}, {cell.col})"

/-- **Why a group of minterms is no loop.** -/
inductive ShapeFault where
  /-- The group has no minterm. -/
  | empty
  /-- The number of cells is not a power of two. -/
  | notPowerOfTwo (count : Nat)
  /-- There are more cells than the grid has. -/
  | tooLarge (count capacity : Nat)
  /-- The occupied rows are not contiguous, even around the edge. -/
  | nonContiguousRows
  /-- The occupied columns are not contiguous, even around the edge. -/
  | nonContiguousCols
  /-- The cells do not fill the rows and columns they occupy. -/
  | incompleteBoundingBox (count rows cols : Nat)
  /-- A minterm is not on the grid. -/
  | mintermOutOfRange (minterm : Nat)
  deriving DecidableEq, Repr

/-- The fault in words. -/
def ShapeFault.message : ShapeFault → String
  | .empty => "group is empty"
  | .notPowerOfTwo count => s!"{count} cells is not a power of two"
  | .tooLarge count capacity => s!"{count} cells exceed the grid capacity of {capacity}"
  | .nonContiguousRows => "occupied rows are not contiguous, even with wraparound"
  | .nonContiguousCols => "occupied columns are not contiguous, even with wraparound"
  | .incompleteBoundingBox count rows cols =>
    s!"{count} cells do not fill the {rows}x{cols} bounding box"
  | .mintermOutOfRange minterm => s!"minterm {minterm} is outside the grid"

/-- **Why a text is no expression.** -/
inductive ExpressionFault where
  /-- There is no term in it. -/
  | noTerms
  /-- A term names neither a variable of the map nor a constant. -/
  | emptyTerm (term : String) (numVars : Nat)
  deriving DecidableEq, Repr

/-- The fault in words. -/
def ExpressionFault.message : ExpressionFault → String
  | .noTerms => "no terms found"
  | .emptyTerm term numVars =>
    s!"term '{term}' has no variables or constants for {numVars} variables"

/-- **Why something is no pattern.** -/
inductive PatternFault where
  /-- The text has too few or too many characters. -/
  | length (found : Nat)
  /-- A character stands for no requirement. -/
  | unexpected (c : Char)
  /-- The mask fixes positions that are no variables. -/
  | maskTooWide (numVars : Nat)
  /-- The pattern is for another number of variables. -/
  | otherLength (expected found : Nat)
  deriving DecidableEq, Repr

/-- The fault in words. -/
def PatternFault.message : PatternFault → String
  | .length found => s!"length {found} is outside {minVariables}..={maxVariables}"
  | .unexpected c => s!"unexpected character '{c}'"
  | .maskTooWide numVars => s!"mask has bits beyond {numVars} variables"
  | .otherLength expected found => s!"expected {expected} positions, found {found}"

/-- **What can go wrong with a map**, an expression on it or a cover of
it. -/
inductive MapError where
  /-- There are too few or too many variables. -/
  | unsupportedVariableCount (found min max : Nat)
  /-- A group of minterms cannot be drawn as one loop. -/
  | invalidGroupShape (minterms : List Nat) (fault : ShapeFault)
  /-- A text is no sum of products. -/
  | malformedExpression (expression : String) (fault : ExpressionFault)
  /-- A minterm is not an input of the function. -/
  | mintermOutOfRange (minterm numVars : Nat)
  /-- A cell is not on the grid. -/
  | cellOutOfRange (cell : Cell) (rows cols : Nat)
  /-- Rows of cells do not have the size of the layout. -/
  | gridDimensionMismatch (rows cols foundRows foundCols : Nat)
  /-- Something is no pattern. -/
  | invalidBitPattern (pattern : String) (fault : PatternFault)
  /-- A minterm is required and left open at once. -/
  | overlappingDontCare (minterm : Nat)
  /-- A term covers other minterms than is said of it. -/
  | inconsistentImplicant (pattern : Pattern) (expected reported : List Nat)
  /-- A cell has no place in the drawing. -/
  | missingCellGeometry (cell : Cell)
  deriving DecidableEq, Repr

namespace MapError

/-- **The error in words.** -/
def message : MapError → String
  | unsupportedVariableCount found min max =>
    s!"unsupported variable count {found} (supported: {min}..={max})"
  | invalidGroupShape minterms fault =>
    s!"invalid group shape for minterms {Text.bracketed minterms}: {fault.message}"
  | malformedExpression expression fault =>
    s!"malformed expression {Text.quoted expression}: {fault.message}"
  | mintermOutOfRange minterm numVars =>
    s!"minterm {minterm} out of range for {numVars} variables"
  | cellOutOfRange cell rows cols =>
    s!"cell {cell.toText} is outside the {rows}x{cols} grid"
  | gridDimensionMismatch rows cols foundRows foundCols =>
    s!"grid is {foundRows}x{foundCols} but the layout is {rows}x{cols}"
  | invalidBitPattern pattern fault =>
    s!"invalid bit pattern {Text.quoted pattern}: {fault.message}"
  | overlappingDontCare minterm =>
    s!"minterm {minterm} is listed both as a minterm and as a don't-care"
  | inconsistentImplicant pattern expected reported =>
    s!"implicant {pattern.toText} covers {Text.bracketed expected} " ++
      s!"but the solver reported {Text.bracketed reported}"
  | missingCellGeometry cell => s!"no cell geometry available for {cell.toText}"

/-- **Whether a drawing goes on without the group** that the error is
about. -/
def recoverable : MapError → Bool
  | invalidGroupShape .. | inconsistentImplicant .. => true
  | _ => false

end MapError

end Karnaugh
