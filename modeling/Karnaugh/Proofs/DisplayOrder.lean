import Karnaugh.Proofs.Rounds

/-!
# The order in which implicants are shown

Implicants are shown by their number of literals, then by how many minterms
they have, the more the earlier, and last by the text of the pattern. This
is the lexicographic order of a key (`Implicant.displayKey`), so it is
transitive and total, and sorting by it makes a list ascending. Two
implicants whose keys are equal have the same pattern, so a list without
repetition is even *strictly* ascending once it is sorted
(`Implicant.pairwise_mergeSort_displayLe`).
-/

namespace Karnaugh

/-- The order of dictionaries is the library's order of lists. -/
theorem lexLt_iff {as bs : List Char} : lexLt as bs = true ↔ as < bs := by
  induction as generalizing bs with
  | nil => cases bs <;> simp [lexLt]
  | cons a as ih =>
    cases bs with
    | nil => simp [lexLt]
    | cons b bs => simp [lexLt, ih, List.cons_lt_cons_iff]

namespace Pattern

theorem bitChar_injective : Function.Injective bitChar := by
  rintro (_ | _ | _) (_ | _ | _) h
  all_goals first
    | rfl
    | exact absurd h (by decide)

/-- A pattern is known by its text. -/
theorem toChars_injective : Function.Injective toChars := fun _ _ h =>
  ext_bits (List.map_injective_iff.mpr bitChar_injective h)

end Pattern

namespace Implicant

/-- **What the place of an implicant depends on**, in the order of
importance. -/
def displayKey (i : Implicant) : ℕ ×ₗ ℕᵒᵈ ×ₗ List Char :=
  toLex (i.literalCount, toLex (OrderDual.toDual i.minterms.length, i.pattern.toChars))

theorem displayKey_lt_iff {i j : Implicant} :
    i.displayKey < j.displayKey
      ↔ i.literalCount < j.literalCount ∨ i.literalCount = j.literalCount
          ∧ (j.minterms.length < i.minterms.length ∨ i.minterms.length = j.minterms.length
            ∧ i.pattern.toChars < j.pattern.toChars) := by
  simp [displayKey, Prod.Lex.toLex_lt_toLex]

/-- **Shown before means a smaller key.** -/
theorem displayOrder_eq_lt_iff {i j : Implicant} :
    i.displayOrder j = .lt ↔ i.displayKey < j.displayKey := by
  rw [displayKey_lt_iff, displayOrder]
  simp only [Ordering.then_eq_lt, Nat.compare_eq_lt, Nat.compare_eq_eq]
  refine or_congr_right (and_congr_right fun _ => or_congr_right ?_)
  rw [eq_comm (a := j.minterms.length)]
  refine and_congr_right fun _ => ?_
  by_cases heq : i.pattern.toChars = j.pattern.toChars
  · simp [heq]
  · rw [if_neg heq]
    split
    · next h => simp [lexLt_iff.mp h]
    · next h => simpa using fun h' => h (lexLt_iff.mpr h')

theorem displayOrder_eq_gt_iff {i j : Implicant} :
    i.displayOrder j = .gt ↔ j.displayKey < i.displayKey := by
  rw [displayKey_lt_iff, displayOrder]
  simp only [Ordering.then_eq_gt, Nat.compare_eq_gt, Nat.compare_eq_eq]
  rw [eq_comm (a := i.literalCount)]
  refine or_congr_right (and_congr_right fun _ => or_congr_right (and_congr_right fun _ => ?_))
  by_cases heq : i.pattern.toChars = j.pattern.toChars
  · simp [heq]
  · rw [if_neg heq]
    split
    · next h => simpa using (lexLt_iff.mp h).le
    · next h =>
      have hle := not_lt.mp (mt lexLt_iff.mpr h)
      simpa using lt_of_le_of_ne hle (Ne.symm heq)

theorem displayLe_iff {i j : Implicant} :
    i.displayLe j = true ↔ i.displayKey ≤ j.displayKey := by
  unfold displayLe
  rw [bne_iff_ne, Ne, displayOrder_eq_gt_iff, not_lt]

/-- In strict order, no implicant stands twice. -/
theorem nodup_of_pairwise_displayOrder {is : List Implicant}
    (h : is.Pairwise fun i j => i.displayOrder j = .lt) : is.Nodup :=
  h.imp fun hlt heq => (displayOrder_eq_lt_iff.mp hlt).ne (congrArg displayKey heq)

/-- Implicants with equal keys have the same pattern. -/
theorem pattern_eq_of_displayKey_eq {i j : Implicant} (h : i.displayKey = j.displayKey) :
    i.pattern = j.pattern :=
  Pattern.toChars_injective (congrArg (fun k => (ofLex (ofLex k).2).2) h)

/-- **Sorting patterns that differ puts each strictly before the next.** -/
theorem pairwise_mergeSort_displayLe {is : List Implicant} (hf : ∀ i ∈ is, i.Faithful)
    (hn : is.Nodup) :
    (is.mergeSort displayLe).Pairwise fun i j => i.displayOrder j = .lt := by
  have hperm := List.mergeSort_perm is displayLe
  have hsorted : (is.mergeSort displayLe).Pairwise fun i j => i.displayLe j = true := by
    refine List.pairwise_mergeSort (fun a b c hab hbc => ?_) (fun a b => ?_) is
    · rw [displayLe_iff] at hab hbc ⊢
      exact hab.trans hbc
    · rw [Bool.or_eq_true, displayLe_iff, displayLe_iff]
      exact le_total _ _
  -- sorted, and no two are the same: equal keys would make them so
  have hboth := hsorted.and (hperm.nodup_iff.mpr hn)
  refine hboth.imp_of_mem fun {i j} hi hj ⟨hle, hne⟩ => ?_
  rw [displayOrder_eq_lt_iff]
  refine lt_of_le_of_ne (displayLe_iff.mp hle) fun heq => hne ?_
  exact (hf i (hperm.subset hi)).ext (hf j (hperm.subset hj)) (pattern_eq_of_displayKey_eq heq)

end Implicant

end Karnaugh
