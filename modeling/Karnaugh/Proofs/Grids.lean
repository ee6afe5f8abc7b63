import Karnaugh.Grid.Basic
import Karnaugh.Proofs.Cubes
import Karnaugh.Proofs.Placement

/-!
# Grids and the sets they stand for

A grid keeps its states in one list, row by row. Cells of the map have places
of their own in it (`Grid.offset_injective`), so replacing the state of one
cell leaves the others as they are (`Grid.stateOf_replace`). Marking minterms
one after the other then does to each minterm what the lists say of it, and to
no other (`Grid.markDontCare_spec`, `Grid.markOn_spec`).

The grid of two sets without a member in common therefore stands for them: it
is on at the first, open at the second and off elsewhere, and what is read off
it are the two sets again (`Grid.ofSets_spec`, `Grid.StandsFor.extract_eq`). Other
sets have no grid (`Grid.exists_ofSets_eq_ok_iff`), and every grid is that of the
sets that are read off it (`Grid.ofSets_extract`).
-/

namespace Karnaugh.Grid

variable {layout : Layout} {g : Grid}

/-! ## Places -/

theorem offset_lt {cell : Cell} (h : layout.contains cell = true) :
    offset layout cell < layout.cellCount := by
  obtain ⟨hrow, hcol⟩ := Layout.contains_iff.mp h
  calc cell.row * layout.cols + cell.col
      < cell.row * layout.cols + layout.cols := Nat.add_lt_add_left hcol _
    _ = (cell.row + 1) * layout.cols := (Nat.succ_mul _ _).symm
    _ ≤ layout.rows * layout.cols := Nat.mul_le_mul_right _ hrow

/-- **Cells of the map have places of their own.** -/
theorem offset_injective {cell other : Cell} (h : layout.contains cell = true)
    (h' : layout.contains other = true) (heq : offset layout cell = offset layout other) :
    cell = other := by
  have hcol := (Layout.contains_iff.mp h).2
  have hcol' := (Layout.contains_iff.mp h').2
  obtain ⟨row, col⟩ := cell
  obtain ⟨row', col'⟩ := other
  -- a place divided by the length of a row gives the row, and the rest the column
  unfold offset at heq
  dsimp only at hcol hcol' heq
  have hmod := congrArg (· % layout.cols) heq
  have hdiv := congrArg (· / layout.cols) heq
  simp only [Nat.mul_add_mod_self_right, Nat.mod_eq_of_lt hcol, Nat.mod_eq_of_lt hcol'] at hmod
  simp only [Nat.add_comm (_ * _), Nat.add_mul_div_right _ _ layout.cols_pos,
    Nat.div_eq_of_lt hcol, Nat.div_eq_of_lt hcol', Nat.zero_add] at hdiv
  rw [hmod, hdiv]

theorem stateAt_replace {cell other : Cell} (h : g.layout.contains cell = true)
    (h' : g.layout.contains other = true) (state : CellState) :
    (g.replace cell state).stateAt other = if other = cell then state else g.stateAt other := by
  have hlt : offset g.layout cell < g.cells.length := g.length_cells ▸ offset_lt h
  unfold stateAt replace
  dsimp only
  rw [List.getD_eq_getElem?_getD, List.getElem?_set, if_pos hlt]
  split
  · next heq =>
    rw [if_pos (offset_injective h' h heq.symm)]
    rfl
  · next hne =>
    rw [if_neg fun heq => hne (by rw [heq]), List.getD_eq_getElem?_getD]

theorem replace_stateAt {cell : Cell} (h : g.layout.contains cell = true) :
    g.replace cell (g.stateAt cell) = g := by
  have hlt : offset g.layout cell < g.cells.length := g.length_cells ▸ offset_lt h
  obtain ⟨layout, cells, length_cells⟩ := g
  unfold replace stateAt
  simp only [List.getD_eq_getElem _ _ hlt, List.set_getElem_self]

/-- **The cells come in the order of their places.** -/
theorem map_offset_cells (layout : Layout) :
    layout.cells.map (offset layout) = List.range layout.cellCount := by
  unfold Layout.cells Layout.cellCount
  induction layout.rows with
  | zero => rw [Nat.zero_mul]; rfl
  | succ k ih =>
    -- one more row continues where the rows before it end
    rw [List.range_succ, List.flatMap_append, List.map_append, ih, Nat.succ_mul, List.range_add,
      List.flatMap_singleton, List.map_map]
    rfl

theorem nodup_cells (layout : Layout) : layout.cells.Nodup :=
  List.Nodup.of_map (offset layout) (map_offset_cells layout ▸ List.nodup_range)

/-- **The states of the cells**, in the order of the cells, are what is stored. -/
theorem map_stateAt_cells (g : Grid) : g.layout.cells.map g.stateAt = g.cells := by
  have hplaces : g.layout.cells.map g.stateAt
      = (List.range g.layout.cellCount).map fun place => g.cells.getD place .off := by
    rw [← map_offset_cells, List.map_map]
    rfl
  rw [hplaces, ← g.length_cells]
  have hlength : ((List.range g.cells.length).map fun place => g.cells.getD place .off).length
      = g.cells.length := by
    rw [List.length_map, List.length_range]
  refine List.ext_getElem hlength fun place hplace hplace' => ?_
  rw [List.getElem_map, List.getElem_range, List.getD_eq_getElem _ _ hplace']

/-- The rows put together are what is stored. -/
theorem flatten_rows (g : Grid) : g.rows.flatten = g.cells := by
  rw [← map_stateAt_cells, rows, Layout.cells, List.map_flatMap, List.flatMap]
  simp only [List.map_map]
  rfl

/-! ## Minterms -/

/-- **The state of a minterm**: that of its cell. -/
def stateOf (g : Grid) (m : Nat) : CellState := g.stateAt (g.layout.cellOf m)

theorem stateOf_blank (layout : Layout) (m : Nat) : (blank layout).stateOf m = .off := by
  unfold stateOf stateAt blank
  dsimp only
  rw [List.getD_eq_getElem?_getD, List.getElem?_replicate]
  split <;> rfl

/-- The state of a cell is that of its minterm. -/
theorem stateOf_mintermAt {cell : Cell} (h : g.layout.contains cell = true) :
    g.stateOf (g.layout.mintermAt cell) = g.stateAt cell := by
  rw [stateOf, Layout.cellOf_mintermAt h]

theorem get?_eq_ok_iff {cell : Cell} {state : CellState} :
    g.get? cell = .ok state ↔ g.layout.contains cell = true ∧ g.stateAt cell = state := by
  unfold get?
  split
  · next h => simp [h]
  · next h => simp [h]

theorem stateOf?_eq_ok {m : Nat} (h : m < g.layout.cellCount) :
    g.stateOf? m = .ok (g.stateOf m) := by
  rw [stateOf?, Layout.cellOf?_eq_ok h]
  exact if_pos (Layout.contains_cellOf h)

theorem setMinterm?_eq_ok {m : Nat} (h : m < g.layout.cellCount) (state : CellState) :
    g.setMinterm? m state = .ok (g.replace (g.layout.cellOf m) state) := by
  rw [setMinterm?, Layout.cellOf?_eq_ok h]
  exact if_pos (Layout.contains_cellOf h)

/-- **One minterm at a time**: the state of its cell is replaced, and no other
minterm is affected. -/
theorem stateOf_replace {m k : Nat} (hm : m < g.layout.cellCount) (hk : k < g.layout.cellCount)
    (state : CellState) :
    (g.replace (g.layout.cellOf m) state).stateOf k = if k = m then state else g.stateOf k := by
  have hcell := stateAt_replace (Layout.contains_cellOf hm) (Layout.contains_cellOf hk) state
  refine hcell.trans ?_
  by_cases hkm : k = m
  · rw [if_pos hkm, if_pos (by rw [hkm])]
  · rw [if_neg hkm, if_neg fun heq => hkm (g.layout.cellOf_injective heq)]
    rfl

/-- **Marking don't-cares** opens the listed minterms and no others. -/
theorem markDontCare_spec {ds : List Nat} (h : ∀ m ∈ ds, m < g.layout.cellCount) :
    ∃ g', markDontCare g ds = .ok g' ∧ g'.layout = g.layout
      ∧ ∀ k < g.layout.cellCount, g'.stateOf k = if k ∈ ds then .dontCare else g.stateOf k := by
  induction ds generalizing g with
  | nil => exact ⟨g, rfl, rfl, fun k _ => (if_neg List.not_mem_nil).symm⟩
  | cons m rest ih =>
    have hm := h m List.mem_cons_self
    obtain ⟨g', hok, hlayout, hstate⟩ :=
      ih (g := g.replace (g.layout.cellOf m) .dontCare) fun k hk => h k (List.mem_cons_of_mem m hk)
    refine ⟨g', ?_, hlayout, fun k hk => ?_⟩
    · rw [markDontCare, setMinterm?_eq_ok hm]
      exact hok
    · rw [hstate k hk, stateOf_replace hm hk]
      simp only [List.mem_cons]
      split <;> split <;> simp_all

/-- **Marking minterms** sets the listed ones on, if none of them is open. -/
theorem markOn_spec {ms : List Nat} (h : ∀ m ∈ ms, m < g.layout.cellCount)
    (hopen : ∀ m ∈ ms, g.stateOf m ≠ .dontCare) :
    ∃ g', markOn g ms = .ok g' ∧ g'.layout = g.layout
      ∧ ∀ k < g.layout.cellCount, g'.stateOf k = if k ∈ ms then .on else g.stateOf k := by
  induction ms generalizing g with
  | nil => exact ⟨g, rfl, rfl, fun k _ => (if_neg List.not_mem_nil).symm⟩
  | cons m rest ih =>
    have hm := h m List.mem_cons_self
    -- none of the others becomes open, not even `m` itself if it comes again
    have hstill : ∀ k ∈ rest, (g.replace (g.layout.cellOf m) .on).stateOf k ≠ .dontCare := by
      intro k hk
      rw [stateOf_replace hm (h k (List.mem_cons_of_mem m hk))]
      split
      · exact nofun
      · exact hopen k (List.mem_cons_of_mem m hk)
    obtain ⟨g', hok, hlayout, hstate⟩ := ih (g := g.replace (g.layout.cellOf m) .on)
      (fun k hk => h k (List.mem_cons_of_mem m hk)) hstill
    refine ⟨g', ?_, hlayout, fun k hk => ?_⟩
    · rw [markOn, stateOf?_eq_ok hm, setMinterm?_eq_ok hm]
      simp only [bind, Except.bind, if_neg (hopen m List.mem_cons_self)]
      exact hok
    · rw [hstate k hk, stateOf_replace hm hk]
      simp only [List.mem_cons]
      split <;> split <;> simp_all

/-- **A grid stands for two sets** if it is on at the members of the one, and
open at those of the other. -/
structure StandsFor (g : Grid) (ms ds : List Nat) : Prop where
  /-- The first set is where the grid is on. -/
  mem_minterms_iff : ∀ m, m ∈ ms ↔ m < g.layout.cellCount ∧ g.stateOf m = .on
  /-- The second is where it is open. -/
  mem_dontCares_iff : ∀ m, m ∈ ds ↔ m < g.layout.cellCount ∧ g.stateOf m = .dontCare

/-- **The grid of two sets** on the map, without a member in common, stands
for them. -/
theorem ofSets_spec {ms ds : List Nat} (hms : ∀ m ∈ ms, m < layout.cellCount)
    (hds : ∀ m ∈ ds, m < layout.cellCount) (hdisjoint : ∀ m ∈ ds, m ∉ ms) :
    ∃ g, ofSets layout ms ds = .ok g ∧ g.layout = layout ∧ g.StandsFor ms ds := by
  obtain ⟨opened, hopened, hlayout, hstate⟩ := markDontCare_spec (g := blank layout) hds
  have hlayout : opened.layout = layout := hlayout
  have hfree : ∀ m ∈ ms, opened.stateOf m ≠ .dontCare := by
    intro m hm
    rw [hstate m (hms m hm), if_neg fun hd => hdisjoint m hd hm, stateOf_blank]
    exact nofun
  obtain ⟨g, hok, hlayout', hstate'⟩ :=
    markOn_spec (g := opened) (fun m hm => hlayout ▸ hms m hm) hfree
  have hg : g.layout = layout := hlayout'.trans hlayout
  have hall : ∀ m < layout.cellCount,
      g.stateOf m = if m ∈ ms then .on else if m ∈ ds then .dontCare else .off := by
    intro m hm
    rw [hstate' m (hlayout ▸ hm), hstate m hm, stateOf_blank]
  refine ⟨g, ?_, hg, ⟨fun m => ?_, fun m => ?_⟩⟩
  · rw [ofSets, hopened]
    exact hok
  · rw [hg]
    refine ⟨fun hm => ⟨hms m hm, ?_⟩, fun ⟨hlt, hon⟩ => ?_⟩
    · rw [hall m (hms m hm), if_pos hm]
    · by_contra hm
      rw [hall m hlt, if_neg hm] at hon
      split at hon <;> cases hon
  · rw [hg]
    refine ⟨fun hm => ⟨hds m hm, ?_⟩, fun ⟨hlt, hopen⟩ => ?_⟩
    · rw [hall m (hds m hm), if_neg (hdisjoint m hm), if_pos hm]
    · by_contra hm
      rw [hall m hlt, if_neg hm] at hopen
      split at hopen <;> cases hopen

/-! ## What can be marked -/

variable {g' : Grid} {m : Nat} {ms ds : List Nat}

/-- Only minterms of the map can be marked as open. -/
theorem lt_of_markDontCare (h : markDontCare g ds = .ok g') :
    ∀ m ∈ ds, m < g.layout.cellCount := by
  induction ds generalizing g with
  | nil => exact nofun
  | cons m rest ih =>
    by_cases hm : m < g.layout.cellCount
    · rw [markDontCare, setMinterm?_eq_ok hm] at h
      have hrest := ih (g := g.replace (g.layout.cellOf m) .dontCare) h
      exact List.forall_mem_cons.mpr ⟨hm, hrest⟩
    · rw [markDontCare, setMinterm?, Layout.cellOf?, if_neg hm] at h
      cases h

/-- Only minterms of the map that are not open can be marked as on. -/
theorem of_markOn (h : markOn g ms = .ok g') :
    ∀ m ∈ ms, m < g.layout.cellCount ∧ g.stateOf m ≠ .dontCare := by
  induction ms generalizing g with
  | nil => exact nofun
  | cons m rest ih =>
    by_cases hm : m < g.layout.cellCount
    · rw [markOn, stateOf?_eq_ok hm, setMinterm?_eq_ok hm] at h
      simp only [bind, Except.bind] at h
      split at h
      · cases h
      · next hclosed =>
        refine List.forall_mem_cons.mpr ⟨⟨hm, hclosed⟩, fun k hk => ?_⟩
        obtain ⟨hlt, hstate⟩ := ih h k hk
        refine ⟨hlt, ?_⟩
        -- marking `m` changes no other minterm
        rw [stateOf_replace hm hlt] at hstate
        split at hstate
        · next heq => exact heq ▸ hclosed
        · exact hstate
    · rw [markOn, stateOf?, Layout.cellOf?, if_neg hm] at h
      cases h

/-- **The sets that have a grid** are those on the map without a member in
common. -/
theorem exists_ofSets_eq_ok_iff :
    (∃ g, ofSets layout ms ds = .ok g)
      ↔ (∀ m ∈ ms, m < layout.cellCount) ∧ (∀ m ∈ ds, m < layout.cellCount)
        ∧ ∀ m ∈ ds, m ∉ ms := by
  constructor
  · rintro ⟨g, h⟩
    rw [ofSets] at h
    cases hopened : markDontCare (blank layout) ds with
    | error e =>
      rw [hopened] at h
      cases h
    | ok opened =>
      rw [hopened] at h
      have hds : ∀ m ∈ ds, m < layout.cellCount := lt_of_markDontCare hopened
      obtain ⟨opened', hok, hlayout, hstate⟩ := markDontCare_spec (g := blank layout) hds
      obtain rfl := Except.ok.inj (hok.symm.trans hopened)
      have hms := of_markOn h
      rw [hlayout] at hms
      refine ⟨fun m hm => (hms m hm).1, hds, fun m hd hm => (hms m hm).2 ?_⟩
      rw [hstate m (hds m hd), if_pos hd]
  · rintro ⟨hms, hds, hdisjoint⟩
    obtain ⟨g, hok, -⟩ := ofSets_spec hms hds hdisjoint
    exact ⟨g, hok⟩

/-! ## What is read off a grid -/

theorem mem_mintermsIn {state : CellState} :
    m ∈ g.mintermsIn state ↔ m < g.layout.cellCount ∧ g.stateOf m = state := by
  unfold mintermsIn
  rw [mem_ascending, List.mem_map]
  simp only [List.mem_filter, Layout.mem_cells, decide_eq_true_eq]
  constructor
  · rintro ⟨cell, ⟨hcell, hstate⟩, rfl⟩
    exact ⟨Layout.mintermAt_lt hcell, (stateOf_mintermAt hcell).trans hstate⟩
  · rintro ⟨hm, hstate⟩
    exact ⟨g.layout.cellOf m, ⟨Layout.contains_cellOf hm, hstate⟩, g.layout.mintermAt_cellOf m⟩

/-- As many minterms are in a state as cells are. -/
theorem length_mintermsIn (g : Grid) (state : CellState) :
    (g.mintermsIn state).length = g.count state := by
  have hnodup : ((g.layout.cells.filter fun cell => g.stateAt cell = state).map
      g.layout.mintermAt).Nodup := by
    refine List.Nodup.map_on (fun cell hcell other hother heq => ?_) ((nodup_cells _).filter _)
    have hc := Layout.mem_cells.mp (List.mem_of_mem_filter hcell)
    have ho := Layout.mem_cells.mp (List.mem_of_mem_filter hother)
    rw [← Layout.cellOf_mintermAt hc, heq, Layout.cellOf_mintermAt ho]
  rw [mintermsIn, length_ascending, List.toFinset_card_of_nodup hnodup, List.length_map, count,
    ← map_stateAt_cells, List.count_eq_countP, List.countP_map, List.countP_eq_length_filter]
  rfl

/-- Every cell is in one of the three states. -/
theorem sum_count (g : Grid) :
    g.count .on + g.count .dontCare + g.count .off = g.layout.cellCount := by
  unfold count
  rw [← g.length_cells]
  induction g.cells with
  | nil => rfl
  | cons state rest ih =>
    simp only [List.count_cons, List.length_cons, ← ih]
    cases state <;> simp <;> omega

/-- **What is read off a grid** are the sets that it stands for. -/
theorem StandsFor.extract_eq (h : g.StandsFor ms ds) :
    g.extract = (ascending ms, ascending ds) := by
  refine congrArg₂ Prod.mk
    (eq_of_ascending (pairwise_ascending _) (pairwise_ascending _) fun m => ?_)
    (eq_of_ascending (pairwise_ascending _) (pairwise_ascending _) fun m => ?_)
  · rw [mem_ascending, h.mem_minterms_iff]
    exact mem_mintermsIn
  · rw [mem_ascending, h.mem_dontCares_iff]
    exact mem_mintermsIn

/-! ## The grid of what is read off -/

/-- Every place is that of a cell. -/
theorem exists_offset_eq {place : Nat} (h : place < layout.cellCount) :
    ∃ cell, layout.contains cell = true ∧ offset layout cell = place := by
  refine ⟨⟨place / layout.cols, place % layout.cols⟩, ?_, Nat.div_add_mod' place layout.cols⟩
  exact Layout.contains_iff.mpr
    ⟨Nat.div_lt_of_lt_mul (by rwa [Nat.mul_comm]), Nat.mod_lt place layout.cols_pos⟩

/-- **A grid is told by the states of its minterms.** -/
theorem ext_stateOf (hlayout : g.layout = g'.layout)
    (h : ∀ m < g.layout.cellCount, g.stateOf m = g'.stateOf m) : g = g' := by
  have hcells : g.cells = g'.cells := by
    refine List.ext_getElem (by rw [g.length_cells, g'.length_cells, hlayout])
      fun place hplace hplace' => ?_
    obtain ⟨cell, hcell, rfl⟩ := exists_offset_eq (g.length_cells ▸ hplace)
    have hstate := h _ (Layout.mintermAt_lt hcell)
    rw [stateOf_mintermAt hcell, hlayout, stateOf_mintermAt (hlayout ▸ hcell), stateAt, stateAt,
      ← hlayout] at hstate
    rwa [List.getD_eq_getElem _ _ hplace, List.getD_eq_getElem _ _ hplace'] at hstate
  obtain ⟨layout, cells, length_cells⟩ := g
  obtain ⟨layout', cells', length_cells'⟩ := g'
  obtain rfl : layout = layout' := hlayout
  obtain rfl : cells = cells' := hcells
  rfl

/-- Every grid stands for the sets that are read off it. -/
theorem standsFor_extract (g : Grid) : g.StandsFor g.extract.1 g.extract.2 :=
  ⟨fun _ => mem_mintermsIn, fun _ => mem_mintermsIn⟩

/-- **No two grids stand for the same sets.** -/
theorem StandsFor.unique (h : g.StandsFor ms ds) (h' : g'.StandsFor ms ds)
    (hlayout : g.layout = g'.layout) : g = g' := by
  refine ext_stateOf hlayout fun m hm => ?_
  have hm' : m < g'.layout.cellCount := hlayout ▸ hm
  have hon : g.stateOf m = .on ↔ g'.stateOf m = .on := by
    have := (h.mem_minterms_iff m).symm.trans (h'.mem_minterms_iff m)
    rwa [and_iff_right hm, and_iff_right hm'] at this
  have hopen : g.stateOf m = .dontCare ↔ g'.stateOf m = .dontCare := by
    have := (h.mem_dontCares_iff m).symm.trans (h'.mem_dontCares_iff m)
    rwa [and_iff_right hm, and_iff_right hm'] at this
  cases hstate : g.stateOf m with
  | on => exact (hon.mp hstate).symm
  | dontCare => exact (hopen.mp hstate).symm
  | off =>
    -- what is neither on nor open is off
    cases hstate' : g'.stateOf m with
    | off => rfl
    | on => rw [hon.mpr hstate'] at hstate; cases hstate
    | dontCare => rw [hopen.mpr hstate'] at hstate; cases hstate

/-- **What is read off a grid makes that grid again.** -/
theorem ofSets_extract (g : Grid) : ofSets g.layout g.extract.1 g.extract.2 = .ok g := by
  have hstands := g.standsFor_extract
  obtain ⟨g', hok, hlayout, hstands'⟩ := ofSets_spec
    (fun m hm => ((hstands.mem_minterms_iff m).mp hm).1)
    (fun m hm => ((hstands.mem_dontCares_iff m).mp hm).1) (fun m hd hm => by
      have hopen := ((hstands.mem_dontCares_iff m).mp hd).2
      rw [((hstands.mem_minterms_iff m).mp hm).2] at hopen
      cases hopen)
  rw [hok, hstands'.unique hstands hlayout]

end Karnaugh.Grid
