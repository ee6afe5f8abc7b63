import Karnaugh.Spec.Basic
import Karnaugh.Text.Numeral

/-!
# Problems as a table

A table of problems has a header and a line per problem, with a comma
between two fields. The lists have commas of their own and stand between
double quotes; the expression stands as it is.
-/

namespace Karnaugh

/-- The first line of a table of problems. -/
def csvHeader : String := "Variables,Minterms,Dont Cares,Expression\n"

/-- The line of a problem. -/
def Spec.csvLine (spec : Spec) : String :=
  Text.numeral spec.numVars ++ ",\"" ++ Text.numerals "," spec.minterms ++ "\",\""
    ++ Text.numerals "," spec.dontCares ++ "\"," ++ spec.expression.getD "" ++ "\n"

/-- **A table of problems.** -/
def csv (specs : List Spec) : String :=
  csvHeader ++ String.join (specs.map Spec.csvLine)

end Karnaugh
