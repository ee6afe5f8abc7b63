import Karnaugh.Spec.Basic
import Karnaugh.Spec.Minterms
import Karnaugh.Text.Percent

/-!
# Share links

A problem is shared as the query of a link, `v=3&m=0,1,5&d=7`: the number
of variables, the minterms and, if there are any, the don't-cares.

A query is read leniently. The text up to a question mark is not part of
it, parameters may come in any order, unknown ones do not count, the last
of several with one name does, and escapes are resolved. Only a number of
variables that is no number is refused. A query without a number of
variables or without minterms holds no problem.
-/

namespace Karnaugh

/-- **Writes a problem as a query.** -/
def Spec.toQuery (spec : Spec) : String :=
  let query := "v=" ++ Text.numeral spec.numVars ++ "&m=" ++ Text.numerals "," spec.minterms
  if spec.dontCares.isEmpty then query
  else query ++ "&d=" ++ Text.numerals "," spec.dontCares

/-- **A parameter of a query**: its name and its value. -/
structure Parameter where
  /-- The name. -/
  name : List Char
  /-- The value, without escapes. -/
  value : List Char
  deriving DecidableEq, Repr

/-- The parameter that a piece of a query holds. Without an equals sign it
is all name. -/
def Parameter.ofPiece (piece : List Char) : Parameter :=
  match Text.splitOnce '=' piece with
  | some (name, value) => ⟨name, Text.percentDecode value⟩
  | none => ⟨piece, []⟩

/-- What a query has said so far. -/
structure QueryState where
  /-- The number of variables. -/
  numVars : Option Nat
  /-- The minterms. -/
  minterms : Option (List Nat)
  /-- The don't-cares. -/
  dontCares : List Nat
  deriving DecidableEq, Repr

namespace QueryState

/-- Nothing said yet. -/
def empty : QueryState := ⟨none, none, []⟩

/-- What a parameter adds. A number of variables that is no number is at
fault. -/
def read (q : QueryState) (p : Parameter) : Except EntryFault QueryState :=
  if p.name = ['v'] then
    match Text.readNumeral Text.wordBound (Text.trim p.value) with
    | .error fault => .error ⟨String.ofList p.value, fault⟩
    | .ok n => .ok { q with numVars := some n }
  else if p.name = ['m'] then .ok { q with minterms := some (lenientMinterms p.value) }
  else if p.name = ['d'] then .ok { q with dontCares := lenientMinterms p.value }
  else .ok q

/-- The problem that has been said, if it is complete. -/
def spec? (q : QueryState) : Option Spec := do
  return Spec.of (← q.numVars) (← q.minterms) q.dontCares

end QueryState

/-- The part of a link that is its query: what follows the first question
mark, or everything. -/
def queryPart (link : List Char) : List Char :=
  match Text.splitOnce '?' link with
  | some (_, query) => query
  | none => link

/-- The parameters of a query. -/
def queryParameters (query : List Char) : List Parameter :=
  ((Text.split '&' query).filter fun piece => !piece.isEmpty).map Parameter.ofPiece

/-- **Reads a problem from a link or query**, if it holds one. -/
def Spec.ofQuery? (link : String) : Except EntryFault (Option Spec) := do
  let q ← (queryParameters (queryPart link.toList)).foldlM QueryState.read QueryState.empty
  return q.spec?

end Karnaugh
