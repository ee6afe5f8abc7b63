import Karnaugh.Ascending
import Karnaugh.Pattern.Reading

/-!
# Implicants

An implicant is a pattern together with the minterms it stands for. The
minterms are those the pattern covers, unless the implicant comes from
elsewhere: then they are what somebody says they are, and a drawing can
check them.

Two implicants that fix the same variables and differ in one of them
combine into the implicant that leaves this one open.
-/

namespace Karnaugh

/-- **A pattern and the minterms it is said to cover.** -/
structure Implicant where
  /-- The pattern. -/
  pattern : Pattern
  /-- The minterms. -/
  minterms : List Nat
  deriving DecidableEq, Repr

/-- Whether a list is before another one in the order of dictionaries. -/
def lexLt : List Char → List Char → Bool
  | _, [] => false
  | [], _ :: _ => true
  | a :: as, b :: bs => a < b || (a == b && lexLt as bs)

namespace Pattern

/-- The one position in which two rows of requirements differ, if they fix
the same variables and there is exactly one: the rows merged, with that
position left open. -/
def mergeBits? : List (Option Bool) → List (Option Bool) → Option (List (Option Bool))
  | some a :: as, some b :: bs =>
    if a = b then (mergeBits? as bs).map (some a :: ·)
    else if as = bs then some (none :: as)
    else none
  | none :: as, none :: bs => (mergeBits? as bs).map (none :: ·)
  | _, _ => none

/-- What two rows merge to requires one thing less than they do. -/
theorem countP_mergeBits? {as bs cs : List (Option Bool)} (h : mergeBits? as bs = some cs) :
    cs.countP Option.isSome + 1 = as.countP Option.isSome := by
  fun_induction mergeBits? as bs generalizing cs with
  | case1 a as bs ih =>
    obtain ⟨ds, hds, rfl⟩ := Option.map_eq_some_iff.mp h
    rw [List.countP_cons_of_pos rfl, List.countP_cons_of_pos rfl, ih hds]
  | case2 a b bs _ =>
    cases h
    rw [List.countP_cons_of_neg Bool.false_ne_true, List.countP_cons_of_pos rfl]
  | case3 => cases h
  | case4 as bs ih =>
    obtain ⟨ds, hds, rfl⟩ := Option.map_eq_some_iff.mp h
    rw [List.countP_cons_of_neg Bool.false_ne_true, List.countP_cons_of_neg Bool.false_ne_true,
      ih hds]
  | case5 => cases h

/-- **The pattern that leaves open where two others differ**, if they fix
the same variables and differ in exactly one of them. -/
def merge? (p q : Pattern) : Option Pattern :=
  (mergeBits? p.bits q.bits).bind ofBits?

end Pattern

namespace Implicant

/-- The implicant of a pattern, with the minterms that the pattern
covers. -/
def ofPattern (p : Pattern) : Implicant := ⟨p, p.covered⟩

/-- **The implicant of one minterm.** -/
def ofMinterm (numVars minterm : Nat) : Except MapError Implicant := do
  return ⟨← Pattern.ofMinterm numVars minterm, [minterm]⟩

/-- How many variables are fixed. -/
def literalCount (i : Implicant) : Nat := i.pattern.literalCount

/-- How many variables are required to be one. -/
def ones (i : Implicant) : Nat := i.pattern.ones

/-- Whether a minterm is among the implicant's. -/
def covers (i : Implicant) (minterm : Nat) : Bool := i.minterms.contains minterm

/-- **Combines two implicants** that differ in one variable. -/
def combine? (i j : Implicant) : Option Implicant :=
  (i.pattern.merge? j.pattern).map fun p =>
    ⟨p, unionAscending i.minterms j.minterms⟩

/-- What two implicants combine to has one literal less than they have. -/
theorem literalCount_combine? {i j c : Implicant} (h : i.combine? j = some c) :
    c.literalCount + 1 = i.literalCount := by
  obtain ⟨p, hp, rfl⟩ := Option.map_eq_some_iff.mp h
  obtain ⟨bits, hbits, hofBits⟩ := Option.bind_eq_some_iff.mp hp
  rw [Pattern.ofBits?_eq_some_iff.mp hofBits] at hbits
  exact Pattern.countP_mergeBits? hbits

/-- **The order in which implicants are shown**: fewer literals first, then
more minterms, then the pattern's text. -/
def displayOrder (i j : Implicant) : Ordering :=
  (compare i.literalCount j.literalCount).then
    ((compare j.minterms.length i.minterms.length).then
      (if i.pattern.toChars = j.pattern.toChars then .eq
        else if lexLt i.pattern.toChars j.pattern.toChars then .lt else .gt))

/-- Whether an implicant may be shown before another. -/
def displayLe (i j : Implicant) : Bool :=
  i.displayOrder j != .gt

end Implicant

end Karnaugh
