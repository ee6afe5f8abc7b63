import Karnaugh.Proofs.Placement
import Karnaugh.Proofs.Spans

/-!
# Regions are product terms

A group of minterms is a region when its cells fill a rectangle of the torus.
Three views of such a group come together here.

* **Counting**: a group fills its rows and columns exactly when it has as many
  minterms as there are cells in them (`Region.full_iff`), so a region has the
  minterms whose rows and columns are those of its spans.
* **Spans**: rows and columns are spans of their axes, and on axes this short
  the spans of one, two or four indices are the indices whose Gray codes meet
  a row of requirements (`AxisSpan.spans_iff_meets`).
* **Terms**: the requirements on the row and those on the column make up a
  pattern, since a minterm is the Gray code of its row followed by that of its
  column (`Region.covers_iff_meets`).

So the regions of a map are the product terms on its variables
(`Region.region_iff_term`).
-/

namespace Karnaugh.Region

open Pattern

variable {layout : Layout} {minterms : List Nat}

/-! ## What is checked -/

/-- The rows of a group of minterms, ascending. -/
def rowsOf (layout : Layout) (minterms : List Nat) : List Nat :=
  ascending (((ascending minterms).map layout.cellOf).map Cell.row)

/-- The columns of a group of minterms, ascending. -/
def colsOf (layout : Layout) (minterms : List Nat) : List Nat :=
  ascending (((ascending minterms).map layout.cellOf).map Cell.col)

theorem mem_rowsOf {row : Nat} :
    row ∈ rowsOf layout minterms ↔ ∃ m ∈ minterms, (layout.cellOf m).row = row := by
  simp [rowsOf]

theorem mem_colsOf {col : Nat} :
    col ∈ colsOf layout minterms ↔ ∃ m ∈ minterms, (layout.cellOf m).col = col := by
  simp [colsOf]

theorem pairwise_rowsOf (layout : Layout) (minterms : List Nat) :
    (rowsOf layout minterms).Pairwise (· < ·) := pairwise_ascending _

theorem pairwise_colsOf (layout : Layout) (minterms : List Nat) :
    (colsOf layout minterms).Pairwise (· < ·) := pairwise_ascending _

theorem classify_of_outside {m : Nat}
    (h : minterms.find? (fun m => layout.cellCount ≤ m) = some m) :
    classify layout minterms = .error (.mintermOutOfRange m) := by
  unfold classify
  rw [h]
  rfl

/-- **The order of the checks** on minterms of the map. -/
theorem classify_of_lt (h : ∀ m ∈ minterms, m < layout.cellCount) :
    classify layout minterms
      = if (ascending minterms).length = 0 then .error .empty
        else if !isPowerOfTwo (ascending minterms).length then
          .error (.notPowerOfTwo (ascending minterms).length)
        else if layout.cellCount < (ascending minterms).length then
          .error (.tooLarge (ascending minterms).length layout.cellCount)
        else
          match AxisSpan.classify (rowsOf layout minterms) layout.rows,
            AxisSpan.classify (colsOf layout minterms) layout.cols with
          | none, _ => .error .nonContiguousRows
          | some _, none => .error .nonContiguousCols
          | some rowSpan, some colSpan =>
            if (ascending minterms).length
                ≠ (rowsOf layout minterms).length * (colsOf layout minterms).length then
              .error (.incompleteBoundingBox (ascending minterms).length
                (rowsOf layout minterms).length (colsOf layout minterms).length)
            else .ok (ofSpans rowSpan colSpan) := by
  have hrange : minterms.find? (fun m => layout.cellCount ≤ m) = none :=
    List.find?_eq_none.mpr fun m hm => by simpa using h m hm
  unfold classify rowsOf colsOf
  rw [hrange, show (ascending minterms).length
    = ((ascending minterms).map layout.cellOf).length from (List.length_map _).symm]
  dsimp only
  split
  · rfl
  split
  · rfl
  split
  · rfl
  cases AxisSpan.classify (ascending (((ascending minterms).map layout.cellOf).map Cell.row))
      layout.rows with
  | none => rfl
  | some rowSpan =>
    cases AxisSpan.classify (ascending (((ascending minterms).map layout.cellOf).map Cell.col))
        layout.cols with
    | none => rfl
    | some colSpan =>
      dsimp only
      split
      · rfl
      · rfl

/-- **A group that fills the rows and columns of two spans.** -/
structure Fills (layout : Layout) (minterms : List Nat) (rowSpan colSpan : AxisSpan) : Prop where
  /-- Its minterms are on the map. -/
  lt_cellCount : ∀ m ∈ minterms, m < layout.cellCount
  /-- Their number is a power of two. -/
  powerOfTwo : isPowerOfTwo (ascending minterms).length = true
  /-- Its rows are a span. -/
  rows : AxisSpan.classify (rowsOf layout minterms) layout.rows = some rowSpan
  /-- Its columns are a span. -/
  cols : AxisSpan.classify (colsOf layout minterms) layout.cols = some colSpan
  /-- There is a minterm for each row and column. -/
  full : (ascending minterms).length
    = (rowsOf layout minterms).length * (colsOf layout minterms).length

/-- There are no more minterms on a map than cells. -/
theorem length_ascending_le (h : ∀ m ∈ minterms, m < layout.cellCount) :
    (ascending minterms).length ≤ layout.cellCount := by
  have hsubset : ascending minterms ⊆ List.range layout.cellCount := fun m hm =>
    List.mem_range.mpr (h m (mem_ascending.mp hm))
  exact ((pairwise_ascending minterms).nodup.subperm hsubset).length_le.trans_eq List.length_range

/-- **The groups that are regions.** -/
theorem classify_eq_ok_iff {region : Region} :
    classify layout minterms = .ok region
      ↔ ∃ rowSpan colSpan, Fills layout minterms rowSpan colSpan
          ∧ region = ofSpans rowSpan colSpan := by
  cases hfind : minterms.find? fun m => layout.cellCount ≤ m with
  | some m =>
    rw [classify_of_outside hfind]
    refine ⟨nofun, ?_⟩
    rintro ⟨rowSpan, colSpan, hfills, -⟩
    have hle := List.find?_some hfind
    rw [decide_eq_true_eq] at hle
    exact absurd (hfills.lt_cellCount m (List.mem_of_find?_eq_some hfind)) hle.not_gt
  | none =>
    have hlt : ∀ m ∈ minterms, m < layout.cellCount := fun m hm => by
      simpa using List.find?_eq_none.mp hfind m hm
    rw [classify_of_lt hlt]
    constructor
    · intro h
      split at h
      · cases h
      split at h
      · cases h
      next hpow =>
      split at h
      · cases h
      split at h
      · cases h
      · cases h
      next rowSpan colSpan hrows hcols =>
        split at h
        · cases h
        next hfull =>
          cases h
          exact ⟨rowSpan, colSpan, ⟨hlt, by simpa using hpow, hrows, hcols, not_not.mp hfull⟩,
            rfl⟩
    · rintro ⟨rowSpan, colSpan, hfills, rfl⟩
      have hnonzero : (ascending minterms).length ≠ 0 := by
        intro hzero
        have hpow := hfills.powerOfTwo
        rw [hzero] at hpow
        cases hpow
      rw [if_neg hnonzero, hfills.powerOfTwo, if_neg (by decide),
        if_neg (length_ascending_le hlt).not_gt, hfills.rows, hfills.cols]
      exact if_neg (not_not.mpr hfills.full)

/-! ## Counting -/

theorem isPowerOfTwo_iff {n : Nat} : isPowerOfTwo n = true ↔ ∃ k, n = 2 ^ k := by
  rw [isPowerOfTwo, Bool.and_eq_true, bne_iff_ne, beq_iff_eq]
  constructor
  · rintro ⟨hne, hand⟩
    exact (Nat.and_sub_one_eq_zero_iff_isPowerOfTwo hne).mp hand
  · rintro ⟨k, rfl⟩
    have hne : 2 ^ k ≠ 0 := (Nat.two_pow_pos k).ne'
    exact ⟨hne, (Nat.and_sub_one_eq_zero_iff_isPowerOfTwo hne).mpr ⟨k, rfl⟩⟩

/-- A product is a power of two exactly when both factors are. -/
theorem isPowerOfTwo_mul {m n : Nat} :
    isPowerOfTwo (m * n) = true ↔ isPowerOfTwo m = true ∧ isPowerOfTwo n = true := by
  simp only [isPowerOfTwo_iff]
  constructor
  · rintro ⟨k, hk⟩
    obtain ⟨i, -, hi⟩ := (Nat.dvd_prime_pow Nat.prime_two).mp (Dvd.intro n hk)
    obtain ⟨j, -, hj⟩ := (Nat.dvd_prime_pow Nat.prime_two).mp (Dvd.intro_left m hk)
    exact ⟨⟨i, hi⟩, ⟨j, hj⟩⟩
  · rintro ⟨⟨i, rfl⟩, ⟨j, rfl⟩⟩
    exact ⟨i + j, (pow_add 2 i j).symm⟩

/-- **Counting decides whether a group fills its rows and columns**: it has as
many minterms as there are cells in them exactly when it has one for each. -/
theorem full_iff :
    (ascending minterms).length
        = (rowsOf layout minterms).length * (colsOf layout minterms).length
      ↔ ∀ row ∈ rowsOf layout minterms, ∀ col ∈ colsOf layout minterms,
          ∃ m ∈ minterms, layout.cellOf m = ⟨row, col⟩ := by
  let place : Nat → Nat × Nat := fun m => ((layout.cellOf m).row, (layout.cellOf m).col)
  let places : Finset (Nat × Nat) := minterms.toFinset.image place
  let box : Finset (Nat × Nat) :=
    (rowsOf layout minterms).toFinset ×ˢ (colsOf layout minterms).toFinset
  have hplaces : places.card = (ascending minterms).length := by
    rw [length_ascending]
    refine Finset.card_image_of_injective _ fun m k hmk => ?_
    obtain ⟨hrow, hcol⟩ := Prod.mk.inj hmk
    exact layout.cellOf_injective (congrArg₂ Cell.mk hrow hcol)
  have hbox : box.card = (rowsOf layout minterms).length * (colsOf layout minterms).length := by
    rw [Finset.card_product,
      List.toFinset_card_of_nodup (pairwise_rowsOf layout minterms).nodup,
      List.toFinset_card_of_nodup (pairwise_colsOf layout minterms).nodup]
  have hmem : ∀ row col, (row, col) ∈ places ↔ ∃ m ∈ minterms, layout.cellOf m = ⟨row, col⟩ := by
    intro row col
    rw [Finset.mem_image]
    refine exists_congr fun m => and_congr List.mem_toFinset ?_
    rw [Prod.mk.injEq, ← Cell.mk.injEq]
  have hmemBox : ∀ row col,
      (row, col) ∈ box ↔ row ∈ rowsOf layout minterms ∧ col ∈ colsOf layout minterms := by
    intro row col
    rw [Finset.mem_product, List.mem_toFinset, List.mem_toFinset]
  have hsubset : places ⊆ box := by
    rintro ⟨row, col⟩ hplace
    obtain ⟨m, hm, hcell⟩ := (hmem row col).mp hplace
    exact (hmemBox row col).mpr ⟨mem_rowsOf.mpr ⟨m, hm, by rw [hcell]⟩,
      mem_colsOf.mpr ⟨m, hm, by rw [hcell]⟩⟩
  rw [← hplaces, ← hbox]
  constructor
  · intro hcard row hrow col hcol
    have heq := Finset.eq_of_subset_of_card_le hsubset hcard.ge
    exact (hmem row col).mp (heq ▸ (hmemBox row col).mpr ⟨hrow, hcol⟩)
  · intro hall
    refine congrArg Finset.card (hsubset.antisymm ?_)
    rintro ⟨row, col⟩ hin
    obtain ⟨hrow, hcol⟩ := (hmemBox row col).mp hin
    exact (hmem row col).mpr (hall row hrow col hcol)

/-- **The minterms of a group that fills its rows and columns** are those of
the map with such a row and such a column. -/
theorem Fills.mem_iff {rowSpan colSpan : AxisSpan} (h : Fills layout minterms rowSpan colSpan)
    {m : Nat} :
    m ∈ minterms ↔ m < layout.cellCount ∧ (layout.cellOf m).row ∈ rowsOf layout minterms
      ∧ (layout.cellOf m).col ∈ colsOf layout minterms := by
  constructor
  · intro hm
    exact ⟨h.lt_cellCount m hm, mem_rowsOf.mpr ⟨m, hm, rfl⟩, mem_colsOf.mpr ⟨m, hm, rfl⟩⟩
  · rintro ⟨-, hrow, hcol⟩
    obtain ⟨k, hk, hcell⟩ := full_iff.mp h.full _ hrow _ hcol
    rwa [← layout.cellOf_injective hcell]

/-! ## Terms on the map -/

section Terms

variable {p : Pattern} (hp : p.numVars = layout.numVars)

include hp

/-- **A term on the map**: a minterm is covered when the Gray code of its row
meets the first of the requirements and that of its column the others. -/
theorem covers_iff_meets {m : Nat} :
    m ∈ p.covered ↔ m < layout.cellCount
      ∧ agrees (p.bits.take layout.rowBits) (gray (layout.cellOf m).row) = true
      ∧ agrees (p.bits.drop layout.rowBits) (gray (layout.cellOf m).col) = true := by
  have hlen : (p.bits.drop layout.rowBits).length = layout.colBits := by
    rw [List.length_drop, show p.bits.length = layout.numVars from hp]
    rfl
  rw [mem_covered, covers_iff, hp, inputCount_eq, ← layout.cellCount_eq]
  refine and_congr_right fun _ => ?_
  rw [Layout.gray_row_cellOf, Layout.gray_col_cellOf, Layout.cols_eq, ← hlen, ← agrees_append,
    List.take_append_drop]

theorem mintermAt_mem_covered_iff {cell : Cell} (hcell : layout.contains cell = true) :
    layout.mintermAt cell ∈ p.covered
      ↔ agrees (p.bits.take layout.rowBits) (gray cell.row) = true
        ∧ agrees (p.bits.drop layout.rowBits) (gray cell.col) = true := by
  rw [covers_iff_meets hp, Layout.cellOf_mintermAt hcell,
    and_iff_right (Layout.mintermAt_lt hcell)]

variable (hterm : ∀ m, m ∈ minterms ↔ m ∈ p.covered)

include hterm

/-- The rows of a term are those that meet its requirements on rows. -/
theorem mem_rowsOf_term {row : Nat} :
    row ∈ rowsOf layout minterms
      ↔ row < 2 ^ layout.rowBits
        ∧ agrees (p.bits.take layout.rowBits) (gray row) = true := by
  rw [mem_rowsOf]
  constructor
  · rintro ⟨m, hm, rfl⟩
    obtain ⟨hlt, hrow, -⟩ := (covers_iff_meets hp).mp ((hterm m).mp hm)
    exact ⟨(Layout.contains_iff.mp (Layout.contains_cellOf hlt)).1, hrow⟩
  · rintro ⟨hlt, hrow⟩
    -- some column of the term goes with the row
    obtain ⟨k, hk⟩ := p.exists_mem_covered
    obtain ⟨hklt, -, hcol⟩ := (covers_iff_meets hp).mp hk
    have hcell : layout.contains ⟨row, (layout.cellOf k).col⟩ = true :=
      Layout.contains_iff.mpr
        ⟨hlt, (Layout.contains_iff.mp (Layout.contains_cellOf hklt)).2⟩
    refine ⟨_, (hterm _).mpr ((mintermAt_mem_covered_iff hp hcell).mpr ⟨hrow, hcol⟩), ?_⟩
    rw [Layout.cellOf_mintermAt hcell]

/-- The columns of a term are those that meet its requirements on columns. -/
theorem mem_colsOf_term {col : Nat} :
    col ∈ colsOf layout minterms
      ↔ col < 2 ^ layout.colBits
        ∧ agrees (p.bits.drop layout.rowBits) (gray col) = true := by
  rw [mem_colsOf]
  constructor
  · rintro ⟨m, hm, rfl⟩
    obtain ⟨hlt, -, hcol⟩ := (covers_iff_meets hp).mp ((hterm m).mp hm)
    exact ⟨(Layout.contains_iff.mp (Layout.contains_cellOf hlt)).2, hcol⟩
  · rintro ⟨hlt, hcol⟩
    obtain ⟨k, hk⟩ := p.exists_mem_covered
    obtain ⟨hklt, hrow, -⟩ := (covers_iff_meets hp).mp hk
    have hcell : layout.contains ⟨(layout.cellOf k).row, col⟩ = true :=
      Layout.contains_iff.mpr
        ⟨(Layout.contains_iff.mp (Layout.contains_cellOf hklt)).1, hlt⟩
    refine ⟨_, (hterm _).mpr ((mintermAt_mem_covered_iff hp hcell).mpr ⟨hrow, hcol⟩), ?_⟩
    rw [Layout.cellOf_mintermAt hcell]

/-- **The minterms of a term fill a rectangle.** -/
theorem exists_fills_of_term : ∃ rowSpan colSpan, Fills layout minterms rowSpan colSpan := by
  have hlt : ∀ m ∈ minterms, m < layout.cellCount := fun m hm =>
    ((covers_iff_meets hp).mp ((hterm m).mp hm)).1
  have hbits : p.bits.length = layout.rowBits + layout.colBits :=
    hp.trans layout.rowBits_add_colBits.symm
  obtain ⟨hrowsPow, rowSpan, hrows⟩ :=
    (AxisSpan.spans_iff_meets layout.rowBits_eq (pairwise_rowsOf layout minterms)).mpr
      ⟨p.bits.take layout.rowBits, by rw [List.length_take]; omega,
        fun _ => mem_rowsOf_term hp hterm⟩
  obtain ⟨hcolsPow, colSpan, hcols⟩ :=
    (AxisSpan.spans_iff_meets layout.colBits_eq (pairwise_colsOf layout minterms)).mpr
      ⟨p.bits.drop layout.rowBits, by rw [List.length_drop]; omega,
        fun _ => mem_colsOf_term hp hterm⟩
  have hfull := full_iff.mpr fun row hrow col hcol => by
    obtain ⟨hrowLt, hrowMeets⟩ := (mem_rowsOf_term hp hterm).mp hrow
    obtain ⟨hcolLt, hcolMeets⟩ := (mem_colsOf_term hp hterm).mp hcol
    have hcell : layout.contains ⟨row, col⟩ = true := Layout.contains_iff.mpr ⟨hrowLt, hcolLt⟩
    exact ⟨_, (hterm _).mpr ((mintermAt_mem_covered_iff hp hcell).mpr ⟨hrowMeets, hcolMeets⟩),
      Layout.cellOf_mintermAt hcell⟩
  exact ⟨rowSpan, colSpan, hlt, hfull ▸ isPowerOfTwo_mul.mpr ⟨hrowsPow, hcolsPow⟩, hrows, hcols,
    hfull⟩

end Terms

/-- **What fills a rectangle is a term**: the requirements that its rows meet,
followed by those that its columns meet. -/
theorem Fills.exists_term {rowSpan colSpan : AxisSpan}
    (h : Fills layout minterms rowSpan colSpan) :
    ∃ p : Pattern, p.numVars = layout.numVars ∧ ∀ m, m ∈ minterms ↔ m ∈ p.covered := by
  obtain ⟨hrowsPow, hcolsPow⟩ := isPowerOfTwo_mul.mp (h.full ▸ h.powerOfTwo)
  obtain ⟨rowReq, hrowLen, hrow⟩ :=
    (AxisSpan.spans_iff_meets layout.rowBits_eq (pairwise_rowsOf layout minterms)).mp
      ⟨hrowsPow, rowSpan, h.rows⟩
  obtain ⟨colReq, hcolLen, hcol⟩ :=
    (AxisSpan.spans_iff_meets layout.colBits_eq (pairwise_colsOf layout minterms)).mp
      ⟨hcolsPow, colSpan, h.cols⟩
  have hlen : (rowReq ++ colReq).length = layout.numVars := by
    rw [List.length_append, hrowLen, hcolLen, layout.rowBits_add_colBits]
  let p : Pattern := ⟨rowReq ++ colReq, hlen.symm ▸ layout.two_le,
    hlen.symm ▸ layout.le_four.trans (by decide)⟩
  have hp : p.numVars = layout.numVars := hlen
  refine ⟨p, hp, fun m => ?_⟩
  rw [h.mem_iff, covers_iff_meets hp]
  refine and_congr_right fun hm => ?_
  obtain ⟨hrowLt, hcolLt⟩ := Layout.contains_iff.mp (Layout.contains_cellOf hm)
  rw [Layout.rows_eq] at hrowLt
  rw [Layout.cols_eq] at hcolLt
  rw [hrow, hcol, and_iff_right hrowLt, and_iff_right hcolLt,
    show p.bits.take layout.rowBits = rowReq from List.take_left' hrowLen,
    show p.bits.drop layout.rowBits = colReq from List.drop_left' hrowLen]

theorem exists_region_iff :
    (∃ region, classify layout minterms = .ok region)
      ↔ ∃ p : Pattern, p.numVars = layout.numVars ∧ ∀ m, m ∈ minterms ↔ m ∈ p.covered := by
  constructor
  · rintro ⟨region, h⟩
    obtain ⟨rowSpan, colSpan, hfills, -⟩ := classify_eq_ok_iff.mp h
    exact hfills.exists_term
  · rintro ⟨p, hp, hterm⟩
    obtain ⟨rowSpan, colSpan, hfills⟩ := exists_fills_of_term hp hterm
    exact ⟨ofSpans rowSpan colSpan, classify_eq_ok_iff.mpr ⟨rowSpan, colSpan, hfills, rfl⟩⟩

/-! ## The cells of a region -/

/-- **The cells of a region**: those in a piece of its rows and a piece of its
columns. -/
def Contains (region : Region) (cell : Cell) : Prop :=
  region.rows.Contains cell.row ∧ region.cols.Contains cell.col

@[simp]
theorem rows_ofSpans (rowSpan colSpan : AxisSpan) : (ofSpans rowSpan colSpan).rows = rowSpan := by
  unfold ofSpans
  split <;> rfl

@[simp]
theorem cols_ofSpans (rowSpan colSpan : AxisSpan) : (ofSpans rowSpan colSpan).cols = colSpan := by
  unfold ofSpans
  split <;> rfl

/-- **The spans of a region** are spans of the axes of the map. -/
theorem Fills.fits {rowSpan colSpan : AxisSpan} (h : Fills layout minterms rowSpan colSpan) :
    rowSpan.Fits layout.rows ∧ colSpan.Fits layout.cols :=
  ⟨(AxisSpan.classify_spec (pairwise_rowsOf layout minterms) h.rows).1,
    (AxisSpan.classify_spec (pairwise_colsOf layout minterms) h.cols).1⟩

/-- **A region has the cells of its minterms**, and no others. -/
theorem Fills.contains_iff {rowSpan colSpan : AxisSpan}
    (h : Fills layout minterms rowSpan colSpan) {cell : Cell} :
    (ofSpans rowSpan colSpan).Contains cell ↔ ∃ m ∈ minterms, layout.cellOf m = cell := by
  obtain ⟨-, hrow, -⟩ := AxisSpan.classify_spec (pairwise_rowsOf layout minterms) h.rows
  obtain ⟨-, hcol, -⟩ := AxisSpan.classify_spec (pairwise_colsOf layout minterms) h.cols
  rw [Contains, rows_ofSpans, cols_ofSpans, ← hrow, ← hcol]
  constructor
  · rintro ⟨hr, hc⟩
    exact full_iff.mp h.full _ hr _ hc
  · rintro ⟨m, hm, rfl⟩
    exact ⟨mem_rowsOf.mpr ⟨m, hm, rfl⟩, mem_colsOf.mpr ⟨m, hm, rfl⟩⟩

/-- **A region has as many cells as there are different minterms**, and a map is small
enough for any way of counting them. -/
theorem Fills.cellCount_eq {rowSpan colSpan : AxisSpan}
    (h : Fills layout minterms rowSpan colSpan) :
    (ofSpans rowSpan colSpan).cellCount = minterms.toFinset.card
      ∧ (ofSpans rowSpan colSpan).cellCount? = some minterms.toFinset.card := by
  obtain ⟨hrowFits, -, hrowSize⟩ := AxisSpan.classify_spec (pairwise_rowsOf layout minterms) h.rows
  obtain ⟨hcolFits, -, hcolSize⟩ := AxisSpan.classify_spec (pairwise_colsOf layout minterms) h.cols
  have hcard : rowSpan.size * colSpan.size = minterms.toFinset.card := by
    rw [hrowSize, hcolSize, ← h.full, length_ascending]
  have hrows : layout.rows ≤ 4 := layout.rows_le
  have hcols : layout.cols ≤ 4 := layout.cols_le
  have hsmall : minterms.toFinset.card < 2 ^ 64 := by
    have hle := Nat.mul_le_mul (hrowFits.size_le.trans hrows) (hcolFits.size_le.trans hcols)
    omega
  have hproduct : (rowSpan.size : Int) * colSpan.size = minterms.toFinset.card := by
    rw [← Nat.cast_mul, hcard]
  constructor
  · show Word.wrapped
      ((ofSpans rowSpan colSpan).rows.length * (ofSpans rowSpan colSpan).cols.length) = _
    rw [rows_ofSpans, cols_ofSpans, hrowFits.length_eq (by omega), hcolFits.length_eq (by omega),
      hproduct, Word.wrapped, Word.size_eq]
    omega
  · show ((ofSpans rowSpan colSpan).rows.length?.bind fun rows =>
      (ofSpans rowSpan colSpan).cols.length?.bind fun cols => Word.checked (rows * cols)) = _
    rw [rows_ofSpans, cols_ofSpans, hrowFits.length?_eq (by omega), Option.bind_some,
      hcolFits.length?_eq (by omega), Option.bind_some]
    exact Word.checked_of_lt hproduct hsmall

/-- **The kind of a region** says which of its spans go around the edge. -/
structure KindAgrees (region : Region) : Prop where
  /-- Neither does. -/
  rectangle : (∃ rows cols, region = rectangle rows cols)
    ↔ ¬region.rows.IsWrap ∧ ¬region.cols.IsWrap
  /-- Only the rows do. -/
  wrappedRows : (∃ rows cols, region = wrappedRows rows cols)
    ↔ region.rows.IsWrap ∧ ¬region.cols.IsWrap
  /-- Only the columns do. -/
  wrappedCols : (∃ rows cols, region = wrappedCols rows cols)
    ↔ ¬region.rows.IsWrap ∧ region.cols.IsWrap
  /-- Both do. -/
  wrappedBoth : (∃ rows cols, region = wrappedBoth rows cols)
    ↔ region.rows.IsWrap ∧ region.cols.IsWrap

theorem kindAgrees_ofSpans (rowSpan colSpan : AxisSpan) :
    KindAgrees (ofSpans rowSpan colSpan) := by
  cases rowSpan
  all_goals
    cases colSpan
    all_goals
      constructor
      all_goals simp [ofSpans, AxisSpan.isWrapped, rows, cols, AxisSpan.IsWrap]

/-- **The regions of a map are its product terms.** A group of minterms, in
any order and with whatever in it, has a region exactly when it has the
minterms that some pattern on the variables of the map covers. The cells of
the region are then those of the minterms, there are as many as there are
different minterms – in words of the machine too, as a map is small – and its
kind says which of its spans go around the edge. -/
theorem region_iff_term (layout : Layout) (minterms : List Nat) :
    ((∃ region, classify layout minterms = .ok region)
      ↔ ∃ p : Pattern, p.numVars = layout.numVars ∧ ∀ m, m ∈ minterms ↔ m ∈ p.covered)
    ∧ ∀ region, classify layout minterms = .ok region →
      (∀ cell, region.Contains cell ↔ ∃ m ∈ minterms, layout.cellOf? m = .ok cell)
        ∧ region.cellCount = minterms.toFinset.card
        ∧ region.cellCount? = some minterms.toFinset.card
        ∧ region.KindAgrees := by
  refine ⟨exists_region_iff, fun region h => ?_⟩
  obtain ⟨rowSpan, colSpan, hfills, rfl⟩ := classify_eq_ok_iff.mp h
  obtain ⟨hwrapped, hchecked⟩ := hfills.cellCount_eq
  refine ⟨fun cell => ?_, hwrapped, hchecked, kindAgrees_ofSpans rowSpan colSpan⟩
  rw [hfills.contains_iff]
  refine exists_congr fun m => and_congr_right fun hm => ?_
  rw [Layout.cellOf?_eq_ok_iff, and_iff_right (hfills.lt_cellCount m hm)]

/-- The theorem at the four corners of a map of four variables, in no order
and with a repetition. -/
theorem region_iff_term_corners :
    classify ⟨4, by decide, by decide⟩ [10, 0, 8, 2, 0]
        = .ok (.wrappedBoth (.wrap 0 3 4) (.wrap 0 3 4))
      ∧ (∃ p : Pattern, p.numVars = 4 ∧ ∀ m, m ∈ [10, 0, 8, 2, 0] ↔ m ∈ p.covered)
      ∧ (wrappedBoth (.wrap 0 3 4) (.wrap 0 3 4)).cellCount = [10, 0, 8, 2, 0].toFinset.card := by
  have h : classify ⟨4, by decide, by decide⟩ [10, 0, 8, 2, 0]
      = .ok (.wrappedBoth (.wrap 0 3 4) (.wrap 0 3 4)) := by decide
  obtain ⟨hterm, hcells⟩ := region_iff_term ⟨4, by decide, by decide⟩ [10, 0, 8, 2, 0]
  exact ⟨h, hterm.mp ⟨_, h⟩, (hcells _ h).2.1⟩

end Karnaugh.Region
