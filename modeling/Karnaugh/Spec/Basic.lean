/-!
# Problems as they are kept

A problem is kept and passed on as its number of variables, two lists of
numbers, and perhaps an expression. Nothing is checked at this stage: the
lists may be in any order, repeat themselves and hold what is no minterm.
-/

namespace Karnaugh

/-- **A problem as it is kept.** -/
structure Spec where
  /-- The number of variables. -/
  numVars : Nat
  /-- Where the function is one. -/
  minterms : List Nat
  /-- Where its value does not matter. -/
  dontCares : List Nat
  /-- The function as an expression, if there is one. -/
  expression : Option String
  deriving DecidableEq, Repr

/-- A problem without an expression. -/
def Spec.of (numVars : Nat) (minterms dontCares : List Nat) : Spec :=
  ⟨numVars, minterms, dontCares, none⟩

end Karnaugh
