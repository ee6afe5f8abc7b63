import Karnaugh.Settings.Basic
import Karnaugh.Sheet.Basic
import Karnaugh.Text.Blank

/-!
# Problems

A problem is one that has been checked: its lists are sets of minterms, in
ascending order and without one in common. It comes with the settings by
which it is solved and drawn.

`Problem.solve` answers it with any solver and lays out the answer. Beyond
four variables there is no map, and the sheet has neither grid nor drawing.
-/

namespace Karnaugh

/-- **A checked problem and its settings.** -/
structure Problem where
  /-- How it is solved and drawn. -/
  settings : Settings
  /-- The problem, with ascending lists. -/
  spec : Spec

/-- The same problem with ascending lists. -/
def Spec.normalize (spec : Spec) : Spec :=
  { spec with minterms := ascending spec.minterms, dontCares := ascending spec.dontCares }

/-- The function that is to be minimized. -/
def Spec.request (spec : Spec) : Request := ⟨spec.numVars, spec.minterms, spec.dontCares⟩

namespace Problem

/-- **Checks a problem.** -/
def of (settings : Settings) (spec : Spec) : Except MapError Problem := do
  let spec := spec.normalize
  spec.request.check
  return ⟨settings, spec⟩

/-- **The problem of the function that an expression stands for.** -/
def ofExpression (settings : Settings) (expression : String) (numVars : Nat) :
    Except MapError Problem := do
  let minterms ← Expression.parse expression numVars
  let trimmed := String.ofList (Text.trim expression.toList)
  of settings ⟨numVars, minterms, [], some trimmed⟩

/-- **The problem that a grid stands for.** -/
def ofGrid (settings : Settings) (grid : Grid) : Except MapError Problem :=
  let (minterms, dontCares) := grid.extract
  of settings (Spec.of grid.layout.numVars minterms dontCares)

variable (p : Problem)

/-- Whether the problem has a map. -/
def isDrawable : Bool := p.spec.numVars ≤ maxGridVariables

/-- The map of the problem, if it has one. -/
def grid : Option Grid := do
  let layout ← (Layout.ofNumVars p.spec.numVars).toOption
  (Grid.ofSets layout p.spec.minterms p.spec.dontCares).toOption

/-- Draws implicants on the map of the problem, if it has one. -/
def draw (implicants : List Implicant) : Except MapError (Option Drawing) := do
  if p.isDrawable then
    let layout ← Layout.ofNumVars p.spec.numVars
    return some (← (p.settings.canvasFor layout).draw implicants)
  else
    return none

/-- **Solves the problem and lays out the answer.** -/
def solve (solver : Solver) : Except MapError Sheet := do
  let answer ← solver p.spec.request
  let drawing ← p.draw answer.implicants
  return Sheet.of p.spec answer p.grid drawing p.settings.loops.palette

end Problem

/-- **The sheet of a problem**: checked, solved as the settings say, and
laid out. -/
def visualize (settings : Settings) (spec : Spec) : Except MapError Sheet := do
  (← Problem.of settings spec).solve settings.minimizer

end Karnaugh
