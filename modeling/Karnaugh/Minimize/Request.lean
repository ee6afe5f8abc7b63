import Karnaugh.Pattern.Reading

/-!
# Requests

A function to be minimized is given by its number of variables and two
lists of minterms: those at which it is one, and those at which its value
does not matter. The lists may be in any order and repeat themselves, but
no minterm may be in both.
-/

namespace Karnaugh

/-- **A function to be minimized.** -/
structure Request where
  /-- The number of variables. -/
  numVars : Nat
  /-- Where the function is one. -/
  minterms : List Nat
  /-- Where its value does not matter. -/
  dontCares : List Nat
  deriving DecidableEq, Repr

/-- **Refuses a request** with a number of variables that no expression
has, with a minterm that is no input, or with a minterm in both lists. -/
def Request.check (r : Request) : Except MapError Unit := do
  checkVariableCount r.numVars
  if let some m := (r.minterms ++ r.dontCares).find? fun m => inputCount r.numVars ≤ m then
    throw (.mintermOutOfRange m r.numVars)
  if let some m := r.dontCares.find? fun m => r.minterms.contains m then
    throw (.overlappingDontCare m)

end Karnaugh
