/-!
# Sets of numbers as ascending lists

A set of minterms is kept as a strictly ascending list, so that equal sets
are equal lists. `ascending` brings any list into that form: it sorts and
drops repetitions.
-/

namespace Karnaugh

/-- Puts a number into an ascending list, unless it is there already. -/
def insertAscending (n : Nat) : List Nat → List Nat
  | [] => [n]
  | m :: rest =>
    if n < m then n :: m :: rest
    else if n = m then m :: rest
    else m :: insertAscending n rest

/-- **The set of the numbers in a list**: its members, ascending and each
once. -/
def ascending (ns : List Nat) : List Nat :=
  ns.foldr insertAscending []

/-- The union of two sets. -/
def unionAscending (xs ys : List Nat) : List Nat :=
  xs.foldr insertAscending ys

theorem mem_insertAscending {n k : Nat} {ns : List Nat} :
    k ∈ insertAscending n ns ↔ k = n ∨ k ∈ ns := by
  induction ns with
  | nil => simp [insertAscending]
  | cons m rest ih =>
    simp only [insertAscending]
    split
    · simp
    · split
      · next h => subst h; simp
      · simp only [List.mem_cons, ih]; grind

@[simp]
theorem mem_ascending {k : Nat} {ns : List Nat} : k ∈ ascending ns ↔ k ∈ ns := by
  induction ns with
  | nil => simp [ascending]
  | cons n rest ih =>
    rw [show ascending (n :: rest) = insertAscending n (ascending rest) from rfl,
      mem_insertAscending, ih, List.mem_cons]

theorem pairwise_insertAscending {n : Nat} {ns : List Nat} (h : ns.Pairwise (· < ·)) :
    (insertAscending n ns).Pairwise (· < ·) := by
  induction ns with
  | nil => simp [insertAscending]
  | cons m rest ih =>
    rw [List.pairwise_cons] at h
    simp only [insertAscending]
    split
    · next hlt =>
      refine List.pairwise_cons.mpr ⟨fun k hk => ?_, List.pairwise_cons.mpr h⟩
      rcases List.mem_cons.mp hk with rfl | hk
      · exact hlt
      · exact Nat.lt_trans hlt (h.1 k hk)
    · split
      · exact List.pairwise_cons.mpr h
      · refine List.pairwise_cons.mpr ⟨fun k hk => ?_, ih h.2⟩
        rcases mem_insertAscending.mp hk with rfl | hk
        · omega
        · exact h.1 k hk

theorem pairwise_ascending (ns : List Nat) : (ascending ns).Pairwise (· < ·) := by
  induction ns with
  | nil => exact List.Pairwise.nil
  | cons n rest ih => exact pairwise_insertAscending ih

@[simp]
theorem mem_unionAscending {k : Nat} {xs ys : List Nat} :
    k ∈ unionAscending xs ys ↔ k ∈ xs ∨ k ∈ ys := by
  induction xs with
  | nil => simp [unionAscending]
  | cons n rest ih =>
    rw [show unionAscending (n :: rest) ys = insertAscending n (unionAscending rest ys) from rfl,
      mem_insertAscending, ih, List.mem_cons, or_assoc]

theorem pairwise_unionAscending {xs ys : List Nat} (h : ys.Pairwise (· < ·)) :
    (unionAscending xs ys).Pairwise (· < ·) := by
  induction xs with
  | nil => exact h
  | cons n rest ih => exact pairwise_insertAscending ih

end Karnaugh
