import Karnaugh.Problem
import Karnaugh.Spec.Csv
import Karnaugh.Text.Pad

/-!
# Batches

Many problems are solved one by one, and each on its own: a problem that
cannot be solved is kept with the reason why, and the others are not
affected. The outcomes are in the order of the problems.
-/

namespace Karnaugh

/-- **The outcome for a problem of a batch.** -/
structure Outcome where
  /-- The place of the problem. -/
  index : Nat
  /-- The problem: with its answer if it was solved, else as it came. -/
  spec : Spec
  /-- Why it was not solved. -/
  error : Option MapError
  deriving DecidableEq, Repr

namespace Outcome

/-- Whether the problem was solved. -/
def isSolved (o : Outcome) : Bool := o.error.isNone

/-- The text that is kept of the reason why it was not. -/
def errorText (o : Outcome) : Option String := o.error.map MapError.message

/-- The checked problem with the expression that a solver finds for it. -/
def solved (settings : Settings) (solver : Solver) (spec : Spec) : Except MapError Spec := do
  let problem ← Problem.of settings spec
  let answer ← solver problem.spec.request
  return { problem.spec with expression := some answer.expression }

/-- **The outcome for a problem** at a place. -/
def of (settings : Settings) (solver : Solver) (spec : Spec) (index : Nat) : Outcome :=
  match solved settings solver spec with
  | .ok solvedSpec => ⟨index, solvedSpec, none⟩
  | .error e => ⟨index, spec, some e⟩

/-- A list cut to the width of its column, if it is longer. -/
def shorten (list : String) : String :=
  if 20 < list.length then String.ofList (list.toList.take 17) ++ "..." else list

/-- What came of a problem, in words. -/
def resultText (o : Outcome) : String :=
  match o.errorText with
  | some text => "error: " ++ text
  | none => o.spec.expression.getD ""

/-- The line of an outcome in a summary. -/
def summaryLine (o : Outcome) : String :=
  Text.padLeft 3 (Text.numeral (o.index + 1)) ++ " | "
    ++ Text.padLeft 4 (Text.numeral o.spec.numVars) ++ " | "
    ++ Text.padRight 20 (shorten (Text.numerals "," o.spec.minterms)) ++ " | "
    ++ o.resultText ++ "\n"

end Outcome

/-- **Solves a batch of problems.** -/
def solveBatch (settings : Settings) (specs : List Spec) (solver : Solver) : List Outcome :=
  specs.zipIdx.map fun (spec, index) => Outcome.of settings solver spec index

/-- **The problems that were solved**, as a table. -/
def outcomesCsv (outcomes : List Outcome) : String :=
  csv ((outcomes.filter Outcome.isSolved).map Outcome.spec)

/-- **The outcomes in a table for reading.** -/
def batchSummary (outcomes : List Outcome) : String :=
  "Batch Summary:\n"
    ++ "  # | Vars | Minterms             | Result\n"
    ++ "----|------|----------------------|------------------------\n"
    ++ String.join (outcomes.map Outcome.summaryLine)

end Karnaugh
