import Karnaugh.Implicant

/-!
# Covers

A cover is a choice of prime implicants that together have every minterm.
`selectCover` chooses a small one. A prime that alone has some minterm is
**essential** and always chosen. What the essential primes leave is covered
from the other primes that have any of it – the candidates – in one of two
ways: when there are few candidates, by a search that finds a cover with
the fewest primes and, among those, the fewest literals; otherwise
greedily.

## The search

The minterms still to be covered are the rows of a table, each with the
candidates that have it. The search takes the row with the fewest
candidates and tries each of them in turn. A branch is given up when even
one more prime would make it no better than the best cover so far.
-/

namespace Karnaugh.Cover

/-- **A prime as it is chosen from a list**: its place there and what
matters for a cover. -/
structure Candidate where
  /-- Its place in the list. -/
  index : Nat
  /-- The prime. -/
  prime : Implicant
  deriving DecidableEq, Repr

/-- The primes of a list with their places. -/
def number (primes : List Implicant) : List Candidate :=
  primes.zipIdx.map fun (prime, index) => ⟨index, prime⟩

/-- The candidates at the given places of a list of primes. -/
def candidatesAt (primes : List Implicant) (indices : List Nat) : List Candidate :=
  indices.filterMap fun index => primes[index]?.map fun prime => ⟨index, prime⟩

/-- Whether a candidate has a minterm. -/
def Candidate.covers (c : Candidate) (minterm : Nat) : Bool := c.prime.covers minterm

/-- **A minterm to be covered**, with the candidates that have it. -/
structure Row where
  /-- The minterm. -/
  minterm : Nat
  /-- The candidates that have it. -/
  options : List Candidate
  deriving DecidableEq, Repr

/-- The row of a minterm. -/
def Row.of (candidates : List Candidate) (minterm : Nat) : Row :=
  ⟨minterm, candidates.filter (·.covers minterm)⟩

/-- **A choice of primes and what it costs.** -/
structure Pick where
  /-- The places of the primes, in the order in which they were chosen. -/
  indices : List Nat
  /-- The number of their literals. -/
  literals : Nat
  deriving DecidableEq, Repr

namespace Pick

/-- The choice of nothing. -/
def nothing : Pick := ⟨[], 0⟩

/-- One prime more. -/
def add (p : Pick) (c : Candidate) : Pick :=
  ⟨p.indices ++ [c.index], p.literals + c.prime.literalCount⟩

/-- **The order of costs**: fewer primes, then fewer literals. -/
def cheaper (terms literals : Nat) (best : Pick) : Bool :=
  terms < best.indices.length || (terms == best.indices.length && literals < best.literals)

/-- The cheaper of the best choice so far and another one. -/
def better (best : Option Pick) (p : Pick) : Pick :=
  match best with
  | none => p
  | some b => if cheaper p.indices.length p.literals b then p else b

/-- Whether a choice that still lacks a prime cannot become cheaper than
the best. -/
def hopeless (best : Option Pick) (p : Pick) : Bool :=
  match best with
  | none => false
  | some b => !cheaper (p.indices.length + 1) p.literals b

end Pick

/-- The row with the fewest options, the first of several. -/
def narrowest : Row → List Row → Row
  | row, [] => row
  | row, other :: rest =>
    if other.options.length < row.options.length then narrowest other rest
    else narrowest row rest

/-- The rows that a candidate does not cover. -/
def without (c : Candidate) (rows : List Row) : List Row :=
  rows.filter fun row => !c.covers row.minterm

/-- **The best choice that covers the rows**, or the best so far if that is
as good. Every choice covers a row, so `fuel` for each row is enough. -/
def search : Nat → List Row → Pick → Option Pick → Option Pick
  | _, [], p, best => some (Pick.better best p)
  | 0, _ :: _, _, best => best
  | fuel + 1, row :: rows, p, best =>
    if Pick.hopeless best p then best
    else
      (narrowest row rows).options.foldl
        (fun best c => search fuel (without c (row :: rows)) (p.add c) best) best

/-- **The cheapest cover of minterms** by the primes at given places, in
the order of the choice; nothing if there is no cover. -/
def exactCover (primes : List Implicant) (indices minterms : List Nat) : List Nat :=
  let rows := minterms.map (Row.of (candidatesAt primes indices))
  ((search rows.length rows Pick.nothing none).map Pick.indices).getD []

/-- How many of the minterms a candidate has. -/
def gain (c : Candidate) (minterms : List Nat) : Nat :=
  minterms.countP c.covers

/-- Whether a candidate gains more than another, or as much with fewer
literals. -/
def preferable (minterms : List Nat) (c other : Candidate) : Bool :=
  let g := gain c minterms
  let h := gain other minterms
  h < g || (g == h && c.prime.literalCount < other.prime.literalCount)

/-- The most preferable candidate, the first of several. -/
def favourite (minterms : List Nat) : Candidate → List Candidate → Candidate
  | c, [] => c
  | c, other :: rest =>
    if preferable minterms other c then favourite minterms other rest
    else favourite minterms c rest

/-- Takes the candidate with the greatest gain again and again, until
nothing is left that can be gained. -/
def greedySearch (candidates : List Candidate) : Nat → List Nat → List Nat
  | 0, _ => []
  | fuel + 1, minterms =>
    match candidates.filter fun c => gain c minterms != 0 with
    | [] => []
    | c :: rest =>
      let chosen := favourite minterms c rest
      chosen.index :: greedySearch candidates fuel (minterms.filter fun m => !chosen.covers m)

/-- **A cover of minterms found greedily** from the primes at given
places. -/
def greedyCover (primes : List Implicant) (indices minterms : List Nat) : List Nat :=
  greedySearch (candidatesAt primes indices) minterms.length minterms

/-- The places of the primes that have a minterm. -/
def covering (primes : List Implicant) (minterm : Nat) : List Nat :=
  ((number primes).filter (·.covers minterm)).map Candidate.index

/-- The places of the primes that alone have some minterm. -/
def essentials (primes : List Implicant) (minterms : List Nat) : List Nat :=
  ascending (minterms.filterMap fun m =>
    match covering primes m with
    | [only] => some only
    | _ => none)

/-- The minterms that no prime at the given places has. -/
def uncovered (primes : List Implicant) (indices minterms : List Nat) : List Nat :=
  let chosen := candidatesAt primes indices
  (ascending minterms).filter fun m => !chosen.any (·.covers m)

/-- The places of the primes, other than the given ones, that have one of
the minterms. -/
def candidates (primes : List Implicant) (chosen minterms : List Nat) : List Nat :=
  ((number primes).filter fun c => !chosen.contains c.index && minterms.any c.covers).map
    Candidate.index

/-- **A choice of primes.** -/
structure Selection where
  /-- The places of the chosen primes, ascending. -/
  chosen : List Nat
  /-- How many of them are essential. -/
  essentialCount : Nat
  /-- Whether the others were found by the search that is exact. -/
  exact : Bool
  deriving DecidableEq, Repr

end Cover

/-- The number of candidates up to which a cover is searched for exactly,
unless another is chosen. -/
def standardExactLimit : Nat := 15

open Cover in
/-- **Chooses primes that cover the minterms**: the essential ones, and
then the cheapest others when there are at most `exactLimit` of them to
choose from, or else what greed finds. -/
def selectCover (primes : List Implicant) (minterms : List Nat) (exactLimit : Nat) :
    Selection :=
  let essential := essentials primes minterms
  let remaining := uncovered primes essential minterms
  let places := candidates primes essential remaining
  let exact := places.length ≤ exactLimit
  let extra :=
    if exact then exactCover primes places remaining else greedyCover primes places remaining
  ⟨ascending (essential ++ extra), essential.length, exact⟩

end Karnaugh
