import Karnaugh.Expression
import Karnaugh.Minimize.Cover
import Karnaugh.Minimize.Primes

/-!
# Minimization

The minimal sum of products of a function is a cheapest cover of its
minterms by prime implicants. `minimize` puts the steps together: it
checks the request, finds the primes, chooses a cover and writes it as an
expression.

A problem can also be solved by other means; `Solver` is what anything that
answers requests looks like.
-/

namespace Karnaugh

/-- **A span of time**: seconds and billionths of a second. -/
structure Duration where
  /-- Whole seconds. -/
  secs : Nat
  /-- What is over, in billionths of a second. -/
  nanos : Nat
  deriving DecidableEq, Repr

/-- **What is known about how an answer was found.** -/
structure Statistics where
  /-- How many prime implicants there are. -/
  primeCount : Nat
  /-- How many of them are essential. -/
  essentialCount : Nat
  /-- Whether the cover was searched for exactly. -/
  exactCover : Bool
  /-- How long it took. -/
  solveTime : Duration
  deriving DecidableEq, Repr

/-- Nothing known. -/
def Statistics.none : Statistics := ⟨0, 0, false, ⟨0, 0⟩⟩

/-- **The answer to a request.** -/
structure Answer where
  /-- The sum of products. -/
  expression : String
  /-- Its terms, in the order in which they are shown. -/
  implicants : List Implicant
  /-- The prime implicants from which they were chosen. -/
  primes : List Implicant
  /-- How the answer was found. -/
  statistics : Statistics
  deriving DecidableEq, Repr

/-- **Anything that answers requests.** -/
abbrev Solver := Request → Except MapError Answer

/-- **Finds a minimal sum of products.** The cover is exact when at most
`exactLimit` candidates remain after the essential primes. -/
def minimize (exactLimit : Nat) : Solver := fun r => do
  r.check
  let minterms := ascending r.minterms
  if minterms.isEmpty then
    return ⟨Expression.render [], [], [], .none⟩
  let primes ← primeImplicants r
  let selection := selectCover primes minterms exactLimit
  let cover := (selection.chosen.filterMap (primes[·]?)).mergeSort Implicant.displayLe
  return {
    expression := Expression.render (cover.map Implicant.pattern)
    implicants := cover
    primes := primes
    statistics := ⟨primes.length, selection.essentialCount, selection.exact, ⟨0, 0⟩⟩ }

end Karnaugh
