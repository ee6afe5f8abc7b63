import Karnaugh.Proofs.Arcs
import Karnaugh.Proofs.Regions

/-!
# Why a group is no region

A group of minterms can have several faults at once, and it is refused for one
of them. `Region.Incurs` says which, in terms of the group as a set: how many
minterms it has, and which rows and columns they are in. A fault counts only if
the group has none that is looked for earlier, so no group incurs two.

Every refusal is for the fault that the group incurs, and every group that
incurs one is refused (`Region.classify_eq_error_iff`). Rows and columns are
judged as arcs of their axes, and what a refusal reports are numbers of different
minterms, rows and columns. A group is never refused for having more cells than
the map, since different minterms have different cells.
-/

namespace Karnaugh.Region

variable {layout : Layout} {minterms : List Nat}

/-! ## What a group occupies -/

/-- **What a group of minterms occupies on an axis**: the rows of its cells, or
their columns. -/
def occupied (axis : Cell → Nat) (layout : Layout) (minterms : List Nat) : Finset Nat :=
  minterms.toFinset.image fun m => axis (layout.cellOf m)

theorem mem_occupied {axis : Cell → Nat} {i : Nat} :
    i ∈ occupied axis layout minterms ↔ ∃ m ∈ minterms, axis (layout.cellOf m) = i := by
  simp only [occupied, Finset.mem_image, List.mem_toFinset]

theorem mem_axis {axis : Cell → Nat} {i : Nat} :
    i ∈ ascending (((ascending minterms).map layout.cellOf).map axis)
      ↔ i ∈ occupied axis layout minterms := by
  simp [mem_occupied]

theorem toFinset_axis (axis : Cell → Nat) (layout : Layout) (minterms : List Nat) :
    (ascending (((ascending minterms).map layout.cellOf).map axis)).toFinset
      = occupied axis layout minterms := by
  ext i
  rw [List.mem_toFinset, mem_axis]

theorem length_axis (axis : Cell → Nat) (layout : Layout) (minterms : List Nat) :
    (ascending (((ascending minterms).map layout.cellOf).map axis)).length
      = (occupied axis layout minterms).card := by
  rw [← toFinset_axis, List.toFinset_card_of_nodup (pairwise_ascending _).nodup]

theorem length_rowsOf (layout : Layout) (minterms : List Nat) :
    (rowsOf layout minterms).length = (occupied Cell.row layout minterms).card :=
  length_axis Cell.row layout minterms

theorem length_colsOf (layout : Layout) (minterms : List Nat) :
    (colsOf layout minterms).length = (occupied Cell.col layout minterms).card :=
  length_axis Cell.col layout minterms

/-- **What is occupied is a span exactly if it is an arc.** -/
theorem exists_span_iff {axis : Cell → Nat} {extent : Nat}
    (hlt : ∀ m ∈ minterms, axis (layout.cellOf m) < extent) (hne : minterms ≠ []) :
    (∃ s, AxisSpan.classify (ascending (((ascending minterms).map layout.cellOf).map axis)) extent
        = some s)
      ↔ IsArc extent (occupied axis layout minterms) := by
  obtain ⟨m, hm⟩ := List.exists_mem_of_ne_nil minterms hne
  have hmem := mem_axis.mpr (mem_occupied.mpr ⟨m, hm, rfl⟩ :
    axis (layout.cellOf m) ∈ occupied axis layout minterms)
  rw [AxisSpan.exists_classify_iff (pairwise_ascending _), toFinset_axis,
    and_iff_right (List.ne_nil_of_mem hmem), and_iff_right]
  intro i hi
  obtain ⟨k, hk, rfl⟩ := mem_occupied.mp (mem_axis.mp hi)
  exact hlt k hk

/-! ## Which fault a group incurs -/

/-- A group **on the map** has no minterm beyond it. -/
def OnMap (layout : Layout) (minterms : List Nat) : Prop :=
  ∀ m ∈ minterms, m < 2 ^ layout.numVars

/-- **A group of the right size**: it is on the map, and the number of its
minterms is a power of two. -/
structure Sized (layout : Layout) (minterms : List Nat) : Prop where
  /-- It is on the map. -/
  onMap : OnMap layout minterms
  /-- The number of different minterms is a power of two. -/
  card_eq : ∃ k, minterms.toFinset.card = 2 ^ k

/-- **The fault that a group incurs**: the first of those it has, in the order
in which they are looked for.

A minterm beyond the map comes before everything else, and the first one is
named. Then the size of the group is judged, its rows, its columns, and last
whether it fills them. -/
def Incurs (layout : Layout) (minterms : List Nat) : ShapeFault → Prop
  | .mintermOutOfRange m =>
    ∃ before after, minterms = before ++ m :: after
      ∧ OnMap layout before ∧ 2 ^ layout.numVars ≤ m
  | .empty => minterms = []
  | .notPowerOfTwo count =>
    OnMap layout minterms ∧ minterms ≠ [] ∧ (¬∃ k, minterms.toFinset.card = 2 ^ k)
      ∧ count = minterms.toFinset.card
  | .tooLarge _ _ => False
  | .nonContiguousRows =>
    Sized layout minterms ∧ ¬IsArc layout.rows (occupied Cell.row layout minterms)
  | .nonContiguousCols =>
    Sized layout minterms ∧ IsArc layout.rows (occupied Cell.row layout minterms)
      ∧ ¬IsArc layout.cols (occupied Cell.col layout minterms)
  | .incompleteBoundingBox count rows cols =>
    Sized layout minterms ∧ IsArc layout.rows (occupied Cell.row layout minterms)
      ∧ IsArc layout.cols (occupied Cell.col layout minterms)
      ∧ minterms.toFinset.card
        ≠ (occupied Cell.row layout minterms).card * (occupied Cell.col layout minterms).card
      ∧ count = minterms.toFinset.card
      ∧ rows = (occupied Cell.row layout minterms).card
      ∧ cols = (occupied Cell.col layout minterms).card

theorem onMap_iff : OnMap layout minterms ↔ ∀ m ∈ minterms, m < layout.cellCount := by
  rw [OnMap, layout.cellCount_eq]

theorem Sized.ne_nil (h : Sized layout minterms) : minterms ≠ [] := by
  rintro rfl
  obtain ⟨k, hk⟩ := h.card_eq
  exact absurd hk (Nat.two_pow_pos k).ne

theorem Sized.exists_rowSpan_iff (h : Sized layout minterms) :
    (∃ s, AxisSpan.classify (rowsOf layout minterms) layout.rows = some s)
      ↔ IsArc layout.rows (occupied Cell.row layout minterms) :=
  exists_span_iff (fun m hm =>
    (Layout.contains_iff.mp (Layout.contains_cellOf (onMap_iff.mp h.onMap m hm))).1) h.ne_nil

theorem Sized.exists_colSpan_iff (h : Sized layout minterms) :
    (∃ s, AxisSpan.classify (colsOf layout minterms) layout.cols = some s)
      ↔ IsArc layout.cols (occupied Cell.col layout minterms) :=
  exists_span_iff (fun m hm =>
    (Layout.contains_iff.mp (Layout.contains_cellOf (onMap_iff.mp h.onMap m hm))).2) h.ne_nil

/-! ## The checks, one by one -/

/-- A group that is not on the map has a first minterm beyond it. -/
theorem exists_first_outside (h : ¬OnMap layout minterms) :
    ∃ m, Incurs layout minterms (.mintermOutOfRange m) := by
  induction minterms with
  | nil => exact absurd (fun m hm => nomatch hm) h
  | cons m rest ih =>
    rcases Nat.lt_or_ge m (2 ^ layout.numVars) with hlt | hge
    · have hrest : ¬OnMap layout rest := fun hrest => h (List.forall_mem_cons.mpr ⟨hlt, hrest⟩)
      obtain ⟨k, before, after, rfl, hbefore, hk⟩ := ih hrest
      exact ⟨k, m :: before, after, rfl, List.forall_mem_cons.mpr ⟨hlt, hbefore⟩, hk⟩
    · exact ⟨m, [], rest, rfl, nofun, hge⟩

theorem classify_of_beyond {m : Nat} (h : Incurs layout minterms (.mintermOutOfRange m)) :
    classify layout minterms = .error (.mintermOutOfRange m) := by
  obtain ⟨before, after, rfl, hbefore, hm⟩ := h
  rw [← layout.cellCount_eq] at hm
  refine classify_of_outside (List.find?_eq_some_iff_append.mpr
    ⟨decide_eq_true hm, before, after, rfl, fun k hk => ?_⟩)
  rw [Bool.not_eq_true', decide_eq_false_iff_not]
  exact (onMap_iff.mp hbefore k hk).not_ge

/-- **The size of a group** is judged by the number of its different
minterms. -/
theorem classify_of_card (h : OnMap layout minterms) (hne : minterms ≠ [])
    (hcard : ¬∃ k, minterms.toFinset.card = 2 ^ k) :
    classify layout minterms = .error (.notPowerOfTwo minterms.toFinset.card) := by
  have hzero : minterms.toFinset.card ≠ 0 := by
    rwa [Ne, Finset.card_eq_zero, List.toFinset_eq_empty_iff]
  have hpow : (!isPowerOfTwo minterms.toFinset.card) = true := by
    rw [Bool.not_eq_true', ← Bool.not_eq_true]
    exact fun hpow => hcard (isPowerOfTwo_iff.mp hpow)
  rw [classify_of_lt (onMap_iff.mp h), length_ascending, if_neg hzero, if_pos hpow]

/-- **The checks on a group of the right size**: its rows, its columns, and
whether it fills them. There is room for it on the map. -/
theorem Sized.classify_eq (h : Sized layout minterms) :
    classify layout minterms
      = match AxisSpan.classify (rowsOf layout minterms) layout.rows,
          AxisSpan.classify (colsOf layout minterms) layout.cols with
        | none, _ => .error .nonContiguousRows
        | some _, none => .error .nonContiguousCols
        | some rowSpan, some colSpan =>
          if minterms.toFinset.card
              ≠ (occupied Cell.row layout minterms).card
                * (occupied Cell.col layout minterms).card then
            .error (.incompleteBoundingBox minterms.toFinset.card
              (occupied Cell.row layout minterms).card (occupied Cell.col layout minterms).card)
          else .ok (ofSpans rowSpan colSpan) := by
  have hlt := onMap_iff.mp h.onMap
  have hpow := isPowerOfTwo_iff.mpr h.card_eq
  have hzero : minterms.toFinset.card ≠ 0 := by
    rw [Ne, Finset.card_eq_zero, List.toFinset_eq_empty_iff]
    exact h.ne_nil
  have hroom := (length_ascending_le hlt).not_gt
  rw [length_ascending] at hroom
  rw [classify_of_lt hlt]
  simp only [length_ascending, length_rowsOf, length_colsOf]
  rw [if_neg hzero, hpow, if_neg (by decide)]
  exact if_neg hroom

theorem Sized.classify_of_rows (h : Sized layout minterms)
    (hrows : ¬IsArc layout.rows (occupied Cell.row layout minterms)) :
    classify layout minterms = .error .nonContiguousRows := by
  have hnone : AxisSpan.classify (rowsOf layout minterms) layout.rows = none :=
    Option.eq_none_iff_forall_ne_some.mpr fun s hs =>
      hrows (h.exists_rowSpan_iff.mp ⟨s, hs⟩)
  rw [h.classify_eq, hnone]

theorem Sized.classify_of_cols (h : Sized layout minterms)
    (hrows : IsArc layout.rows (occupied Cell.row layout minterms))
    (hcols : ¬IsArc layout.cols (occupied Cell.col layout minterms)) :
    classify layout minterms = .error .nonContiguousCols := by
  obtain ⟨rowSpan, hrowSpan⟩ := h.exists_rowSpan_iff.mpr hrows
  have hnone : AxisSpan.classify (colsOf layout minterms) layout.cols = none :=
    Option.eq_none_iff_forall_ne_some.mpr fun s hs =>
      hcols (h.exists_colSpan_iff.mp ⟨s, hs⟩)
  rw [h.classify_eq, hrowSpan, hnone]

/-- **A group with contiguous rows and columns** is refused unless it fills
them. -/
theorem Sized.classify_of_arcs (h : Sized layout minterms)
    (hrows : IsArc layout.rows (occupied Cell.row layout minterms))
    (hcols : IsArc layout.cols (occupied Cell.col layout minterms)) :
    ∃ rowSpan colSpan, classify layout minterms
      = if minterms.toFinset.card
          ≠ (occupied Cell.row layout minterms).card
            * (occupied Cell.col layout minterms).card then
          .error (.incompleteBoundingBox minterms.toFinset.card
            (occupied Cell.row layout minterms).card (occupied Cell.col layout minterms).card)
        else .ok (ofSpans rowSpan colSpan) := by
  obtain ⟨rowSpan, hrowSpan⟩ := h.exists_rowSpan_iff.mpr hrows
  obtain ⟨colSpan, hcolSpan⟩ := h.exists_colSpan_iff.mpr hcols
  exact ⟨rowSpan, colSpan, by rw [h.classify_eq, hrowSpan, hcolSpan]⟩

/-! ## Refusals -/

/-- A group that incurs a fault is refused for it. -/
theorem Incurs.classify_eq {fault : ShapeFault} (h : Incurs layout minterms fault) :
    classify layout minterms = .error fault := by
  cases fault with
  | mintermOutOfRange m => exact classify_of_beyond h
  | empty =>
    obtain rfl : minterms = [] := h
    rfl
  | notPowerOfTwo count =>
    obtain ⟨hmap, hne, hcard, rfl⟩ := h
    exact classify_of_card hmap hne hcard
  | tooLarge => exact h.elim
  | nonContiguousRows => exact h.1.classify_of_rows h.2
  | nonContiguousCols => exact h.1.classify_of_cols h.2.1 h.2.2
  | incompleteBoundingBox count rows cols =>
    obtain ⟨hsized, hrows, hcols, hfull, rfl, rfl, rfl⟩ := h
    obtain ⟨rowSpan, colSpan, heq⟩ := hsized.classify_of_arcs hrows hcols
    rw [heq, if_pos hfull]

/-- A group that incurs no fault is a region. -/
theorem exists_region_or_incurs (layout : Layout) (minterms : List Nat) :
    (∃ region, classify layout minterms = .ok region)
      ∨ ∃ fault, Incurs layout minterms fault := by
  by_cases hmap : OnMap layout minterms
  swap
  · obtain ⟨m, hm⟩ := exists_first_outside hmap
    exact Or.inr ⟨_, hm⟩
  by_cases hne : minterms = []
  · exact Or.inr ⟨.empty, hne⟩
  by_cases hcard : ∃ k, minterms.toFinset.card = 2 ^ k
  swap
  · exact Or.inr ⟨.notPowerOfTwo _, hmap, hne, hcard, rfl⟩
  have hsized : Sized layout minterms := ⟨hmap, hcard⟩
  by_cases hrows : IsArc layout.rows (occupied Cell.row layout minterms)
  swap
  · exact Or.inr ⟨.nonContiguousRows, hsized, hrows⟩
  by_cases hcols : IsArc layout.cols (occupied Cell.col layout minterms)
  swap
  · exact Or.inr ⟨.nonContiguousCols, hsized, hrows, hcols⟩
  by_cases hfull : minterms.toFinset.card
      = (occupied Cell.row layout minterms).card * (occupied Cell.col layout minterms).card
  · obtain ⟨rowSpan, colSpan, heq⟩ := hsized.classify_of_arcs hrows hcols
    exact Or.inl ⟨_, heq.trans (if_neg (not_not.mpr hfull))⟩
  · exact Or.inr ⟨.incompleteBoundingBox _ _ _, hsized, hrows, hcols, hfull, rfl, rfl, rfl⟩

/-- **A refusal states the truth.** Whatever is in a group of minterms, it is
refused for a fault exactly if that is the one it incurs. -/
theorem classify_eq_error_iff (layout : Layout) (minterms : List Nat) (fault : ShapeFault) :
    classify layout minterms = .error fault ↔ Incurs layout minterms fault := by
  refine ⟨fun h => ?_, Incurs.classify_eq⟩
  rcases exists_region_or_incurs layout minterms with ⟨region, hregion⟩ | ⟨other, hother⟩
  · cases hregion.symm.trans h
  · obtain rfl := Except.error.inj (hother.classify_eq.symm.trans h)
    exact hother

/-- Of the faults of a group, the one that is looked for first is reported. -/
example : classify ⟨4, by decide, by decide⟩ [0, 3, 20, 17] = .error (.mintermOutOfRange 20) := by
  decide

end Karnaugh.Region
