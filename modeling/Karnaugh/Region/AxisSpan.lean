/-!
# Spans of an axis

The rows a loop occupies, and its columns, are neighbours on an axis whose
ends meet. Either they are a **run** of consecutive indices, or they
**wrap** around the edge: a head from the first index on, and a tail up to
the last. The whole axis is a run.

`AxisSpan.classify` finds the span of ascending indices, if there is one.

## Counting in words

The indices of a span are counted in words of 64 bits. `AxisSpan.classify` has
compared the last index with the extent before it counts anything, so nothing is too
large for a word there. But the length of a span that wraps is found by way of a sum
that may be, although the length is not. What happens then depends on how the program
is built: with checks it stops at such a sum (`Word.checked`), without them it goes on
with what the word holds of it (`Word.wrapped`). So `AxisSpan.lengthBy` goes step by
step, and fits each result into a word.
-/

namespace Karnaugh

namespace Word

/-- The number of words: each has 64 bits. -/
def size : Nat := Nat.pow 2 64

/-- **A result as a word**, unless it is too large or negative: then there is
none. -/
def checked (result : Int) : Option Nat :=
  if 0 ≤ result ∧ result < size then some result.toNat else none

/-- **What a word holds of a result**: its last 64 bits. -/
def wrapped (result : Int) : Nat := (result % size).toNat

end Word

/-- **The indices a loop occupies on one axis.** -/
inductive AxisSpan where
  /-- The indices from `first` to `last`. -/
  | run (first last : Nat)
  /-- The indices up to `headEnd` and those from `tailStart` on, of an axis
  of `extent` indices. -/
  | wrap (headEnd tailStart extent : Nat)
  deriving DecidableEq, Repr

namespace AxisSpan

/-- The neighbours in a list between which indices are left out. -/
def gaps : List Nat → List (Nat × Nat)
  | a :: b :: rest => (if 1 < b - a then [(a, b)] else []) ++ gaps (b :: rest)
  | _ => []

/-- **The span of ascending indices** on an axis of `extent` indices. -/
def classify (indices : List Nat) (extent : Nat) : Option AxisSpan := do
  let first ← indices.head?
  let last ← indices.getLast?
  if extent ≤ last then
    none
  else if last - first + 1 = indices.length then
    some (.run first last)
  else
    match gaps indices with
    | [(headEnd, tailStart)] =>
      if first = 0 ∧ last = extent - 1 then some (.wrap headEnd tailStart extent) else none
    | _ => none

/-- **Counts the indices of a span**, when each result on the way is fitted into a
word. The head is counted first, then the whole axis is added, and what is before
the tail is taken away again. -/
def lengthBy {m : Type → Type} [Monad m] (fit : Int → m Nat) : AxisSpan → m Nat
  | run first last => do
    let between ← fit (last - first)
    fit (between + 1)
  | wrap headEnd tailStart extent => do
    let head ← fit (headEnd + 1)
    let sum ← fit (head + extent)
    fit (sum - tailStart)

/-- How many indices the span has, unless the count stops before its end. -/
def length? (s : AxisSpan) : Option Nat := s.lengthBy Word.checked

/-- How many indices the span has, in a count that does not stop. -/
def length (s : AxisSpan) : Nat := Id.run (s.lengthBy fun result => pure (Word.wrapped result))

/-- Whether the span goes around the edge. -/
def isWrapped : AxisSpan → Bool
  | run .. => false
  | wrap .. => true

/-- The first of the contiguous pieces of the span. -/
def firstSegment : AxisSpan → Nat × Nat
  | run first last => (first, last)
  | wrap headEnd _ _ => (0, headEnd)

/-- The last of the contiguous pieces of the span. -/
def lastSegment : AxisSpan → Nat × Nat
  | run first last => (first, last)
  | wrap _ tailStart extent => (tailStart, extent - 1)

/-- **The contiguous pieces of the span**, ascending, each by its first and
last index. -/
def segments : AxisSpan → List (Nat × Nat)
  | run first last => [(first, last)]
  | s@(wrap ..) => [s.firstSegment, s.lastSegment]

/-- From the start of the first piece to the end of the last. -/
def hull (s : AxisSpan) : Nat × Nat :=
  (s.firstSegment.1, s.lastSegment.2)

end AxisSpan

end Karnaugh
