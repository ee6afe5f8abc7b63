import Karnaugh.Drawing
import Karnaugh.Grid.Basic
import Karnaugh.Minimize.Basic
import Karnaugh.Spec.Basic

/-!
# Result sheets

The sheet of a problem has everything there is to show: the problem, the
expression found for it, a legend of its terms with their colors, and for
maps of up to four variables the grid and the drawing.
-/

namespace Karnaugh

/-- **A line of the legend.** -/
structure LegendEntry where
  /-- The place of the term. -/
  index : Nat
  /-- The term. -/
  term : String
  /-- Its pattern. -/
  pattern : Pattern
  /-- Its color. -/
  color : String
  /-- The minterms it covers. -/
  minterms : List Nat
  deriving DecidableEq, Repr

/-- The legend's line for the term at a place. Its color comes from the
palette in turn; without a palette there is none. -/
def LegendEntry.of (palette : List String) (i : Implicant) (index : Nat) : LegendEntry where
  index
  term := i.pattern.term
  pattern := i.pattern
  color := palette.getD (index % max palette.length 1) ""
  minterms := i.minterms

/-- **The sheet of a problem.** -/
structure Sheet where
  /-- The number of variables. -/
  numVars : Nat
  /-- Where the function is one. -/
  minterms : List Nat
  /-- Where its value does not matter. -/
  dontCares : List Nat
  /-- The expression found. -/
  expression : String
  /-- The terms of the expression. -/
  legend : List LegendEntry
  /-- The prime implicants. -/
  primes : List Implicant
  /-- The map, for up to four variables. -/
  grid : Option Grid
  /-- Its loops, for up to four variables. -/
  drawing : Option Drawing
  /-- How the expression was found. -/
  statistics : Statistics

namespace Sheet

/-- The sheet for the answer to a problem. -/
def of (spec : Spec) (answer : Answer) (grid : Option Grid) (drawing : Option Drawing)
    (palette : List String) : Sheet where
  numVars := spec.numVars
  minterms := spec.minterms
  dontCares := spec.dontCares
  expression := answer.expression
  legend := answer.implicants.zipIdx.map fun (i, index) => .of palette i index
  primes := answer.primes
  grid
  drawing
  statistics := answer.statistics

/-- The problem of the sheet, with the expression found. -/
def spec (s : Sheet) : Spec :=
  ⟨s.numVars, s.minterms, s.dontCares, some s.expression⟩

end Sheet

end Karnaugh
