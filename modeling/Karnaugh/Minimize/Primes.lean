import Karnaugh.Minimize.Request
import Karnaugh.Minimize.Rounds

/-!
# Prime implicants

The prime implicants of a function are its largest product terms: those
that cover no minterm at which the function is zero, and of which no
variable can be left open. They are found in rounds. The first round has
an implicant for each minterm, and each round combines all pairs that
differ in one variable. What combines is not prime; what does not, is.
There are at most as many rounds as variables, and one more.
-/

namespace Karnaugh

/-- The first round: an implicant for each minterm of a request that may be
covered. -/
def firstRound (r : Request) : Except MapError (List Implicant) :=
  (ascending (r.minterms ++ r.dontCares)).mapM (Implicant.ofMinterm r.numVars)

/-- **The prime implicants of a request** that cover one of its minterms,
in the order in which they are shown. -/
def primeImplicants (r : Request) : Except MapError (List Implicant) := do
  let primes := largest (← firstRound r)
  let useful := primes.filter fun i => i.minterms.any r.minterms.contains
  return useful.mergeSort Implicant.displayLe

end Karnaugh
