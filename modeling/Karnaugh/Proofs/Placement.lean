import Karnaugh.Layout
import Karnaugh.Proofs.GrayCode

/-!
# Minterms and cells

The digits of a minterm are cut in two: the leading ones are the Gray code of
its row, the others that of its column (`Layout.gray_row_cellOf`,
`Layout.gray_col_cellOf`). As the Gray code renumbers each axis, every minterm
of the map has a cell of its own and every cell has one
(`Layout.mintermAt_cellOf`, `Layout.cellOf_mintermAt`).
-/

namespace Karnaugh.Layout

variable {layout : Layout} {m : Nat} {cell : Cell}

/-! ## The size of a map -/

theorem rows_eq (layout : Layout) : layout.rows = 2 ^ layout.rowBits := rfl

theorem cols_eq (layout : Layout) : layout.cols = 2 ^ layout.colBits := rfl

theorem rowBits_add_colBits (layout : Layout) :
    layout.rowBits + layout.colBits = layout.numVars := by
  unfold colBits rowBits
  omega

theorem cellCount_eq (layout : Layout) : layout.cellCount = 2 ^ layout.numVars := by
  rw [cellCount, rows_eq, cols_eq, ← pow_add, rowBits_add_colBits]

/-- An axis stands for one variable or for two. -/
theorem rowBits_eq (layout : Layout) : layout.rowBits = 1 ∨ layout.rowBits = 2 := by
  have h2 : 2 ≤ layout.numVars := layout.two_le
  have h4 : layout.numVars ≤ 4 := layout.le_four
  unfold rowBits
  omega

theorem colBits_eq (layout : Layout) : layout.colBits = 1 ∨ layout.colBits = 2 := by
  have h2 : 2 ≤ layout.numVars := layout.two_le
  have h4 : layout.numVars ≤ 4 := layout.le_four
  unfold colBits rowBits
  omega

/-- An axis has four cells at most. -/
theorem rows_le (layout : Layout) : layout.rows ≤ 4 := by
  rw [rows_eq]
  rcases layout.rowBits_eq with h | h <;> rw [h] <;> decide

theorem cols_le (layout : Layout) : layout.cols ≤ 4 := by
  rw [cols_eq]
  rcases layout.colBits_eq with h | h <;> rw [h] <;> decide

theorem cols_pos (layout : Layout) : 0 < layout.cols := Nat.two_pow_pos _

theorem contains_iff :
    layout.contains cell = true ↔ cell.row < layout.rows ∧ cell.col < layout.cols := by
  rw [contains, Bool.and_eq_true, decide_eq_true_eq, decide_eq_true_eq]

theorem mem_cells : cell ∈ layout.cells ↔ layout.contains cell = true := by
  rw [contains_iff]
  obtain ⟨row, col⟩ := cell
  simp [cells]

/-! ## From minterms to cells and back -/

/-- The leading digits of a minterm of the map are below the number of
rows. -/
theorem shiftRight_lt_rows (h : m < layout.cellCount) : m >>> layout.colBits < layout.rows := by
  rw [Nat.shiftRight_eq_div_pow, ← cols_eq]
  exact Nat.div_lt_of_lt_mul (by rwa [Nat.mul_comm])

theorem mod_lt_cols (layout : Layout) (m : Nat) : m % layout.cols < layout.cols :=
  Nat.mod_lt m layout.cols_pos

theorem gray_row_cellOf (layout : Layout) (m : Nat) :
    gray (layout.cellOf m).row = m >>> layout.colBits :=
  gray_ungray _

theorem gray_col_cellOf (layout : Layout) (m : Nat) :
    gray (layout.cellOf m).col = m % layout.cols :=
  gray_ungray _

theorem contains_cellOf (h : m < layout.cellCount) : layout.contains (layout.cellOf m) = true :=
  contains_iff.mpr ⟨ungray_lt (shiftRight_lt_rows h), ungray_lt (mod_lt_cols layout m)⟩

/-- **The minterm of the cell of a minterm** is that minterm. -/
theorem mintermAt_cellOf (layout : Layout) (m : Nat) :
    layout.mintermAt (layout.cellOf m) = m := by
  rw [mintermAt, gray_row_cellOf, gray_col_cellOf, Nat.shiftRight_eq_div_pow, ← cols_eq]
  exact Nat.div_add_mod' m layout.cols

theorem gray_col_lt (h : layout.contains cell = true) : gray cell.col < layout.cols :=
  gray_lt (contains_iff.mp h).2

theorem mintermAt_shiftRight (h : layout.contains cell = true) :
    layout.mintermAt cell >>> layout.colBits = gray cell.row := by
  rw [Nat.shiftRight_eq_div_pow, ← cols_eq, mintermAt,
    Nat.add_comm, Nat.add_mul_div_right _ _ layout.cols_pos, Nat.div_eq_of_lt (gray_col_lt h),
    Nat.zero_add]

theorem mintermAt_mod (h : layout.contains cell = true) :
    layout.mintermAt cell % layout.cols = gray cell.col := by
  rw [mintermAt, Nat.mul_add_mod_self_right, Nat.mod_eq_of_lt (gray_col_lt h)]

theorem mintermAt_lt (h : layout.contains cell = true) :
    layout.mintermAt cell < layout.cellCount := by
  refine (Nat.div_lt_iff_lt_mul layout.cols_pos).mp ?_
  rw [cols_eq, ← Nat.shiftRight_eq_div_pow, mintermAt_shiftRight h]
  exact gray_lt (contains_iff.mp h).1

/-- **The cell of the minterm of a cell** is that cell. -/
theorem cellOf_mintermAt (h : layout.contains cell = true) :
    layout.cellOf (layout.mintermAt cell) = cell := by
  rw [cellOf, mintermAt_shiftRight h, mintermAt_mod h, ungray_gray, ungray_gray]

/-- Minterms that share a cell are the same. -/
theorem cellOf_injective (layout : Layout) : Function.Injective layout.cellOf :=
  Function.LeftInverse.injective layout.mintermAt_cellOf

theorem cellOf?_eq_ok_iff :
    layout.cellOf? m = .ok cell ↔ m < layout.cellCount ∧ layout.cellOf m = cell := by
  unfold cellOf?
  split
  · next h => simp [h]
  · next h => simp [h]

theorem cellOf?_eq_ok (h : m < layout.cellCount) : layout.cellOf? m = .ok (layout.cellOf m) :=
  if_pos h

end Karnaugh.Layout
