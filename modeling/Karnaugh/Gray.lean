/-!
# The Gray code

Rows and columns of a map are numbered so that neighbours differ in one
variable. The number of the `i`-th row is the **Gray code** of `i`: the
exclusive or of `i` and its half. Going back halves the code as long as
there is something to halve, and takes the exclusive or of all that comes
up on the way.

The codes of two neighbours differ in one bit, and so do the first and the
last code of an axis whose length is a power of two, which is what makes
the map a torus.
-/

namespace Karnaugh

/-- **The Gray code** of a number. -/
def gray (i : Nat) : Nat := i ^^^ (i >>> 1)

/-- **The rest of a decoding**: while more than one digit of the code is
left, the last one goes, and what remains is combined with the number so
far. -/
@[semireducible]
def ungrayFrom (i code : Nat) : Nat :=
  if 1 < code then ungrayFrom (i ^^^ (code >>> 1)) (code >>> 1) else i
termination_by code

/-- **The number whose Gray code is given.** -/
def ungray (code : Nat) : Nat := ungrayFrom code code

example : (List.range 4).map gray = [0b00, 0b01, 0b11, 0b10] := by decide

example : ungray (gray 4294967295) = 4294967295 := by decide

theorem gray_zero : gray 0 = 0 := rfl

end Karnaugh
