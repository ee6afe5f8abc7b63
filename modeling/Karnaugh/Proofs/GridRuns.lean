import Karnaugh.Proofs.Grids

/-!
# Editing a grid

A grid is edited by calls that look at a cell, set its state or move it on. A call on a
cell that is not on the map fails. This module says what any run of calls leaves behind
(`Grid.after`), in whatever order they come and however many of them fail.

All of it rests on what one call does (`Edit.call_of_contains`, `Edit.call_of_outside`):
it puts a state in the place of the one that the cell had, and touches no other cell. So
each cell goes through the calls on it as if there were no others
(`Grid.stateAt_after`). If these only move it on, it goes around, and where it gets to is
told by their number modulo three (`Grid.ordinal_stateAt_after`).

What is read off a grid goes another way, from the cells to their minterms and into
ascending order. No cell gets lost on that way and none is read twice, as every cell has
a minterm of its own (`Grid.accounts_extract`).
-/

namespace Karnaugh

/-! ## The round of states -/

namespace CellState

/-- **The place of a state in the round** that starts where a cell is off. -/
def ordinal : CellState → Nat
  | off => 0
  | on => 1
  | dontCare => 2

theorem ordinal_lt (s : CellState) : s.ordinal < 3 := by
  cases s <;> decide

theorem ordinal_next (s : CellState) : s.next.ordinal = (s.ordinal + 1) % 3 := by
  cases s <;> rfl

end CellState

/-! ## One call -/

/-- **A call on a cell** of a grid. -/
inductive Edit where
  /-- Looks at the state. -/
  | get (cell : Cell)
  /-- Sets the state. -/
  | set (cell : Cell) (state : CellState)
  /-- Moves the cell on to its next state. -/
  | toggle (cell : Cell)
  deriving DecidableEq, Repr

namespace Edit

/-- The cell that a call is on. -/
def cell : Edit → Cell
  | get cell | set cell _ | toggle cell => cell

/-- **What a call makes of the state** of its cell. -/
def effect : Edit → CellState → CellState
  | get _, state => state
  | set _ state, _ => state
  | toggle _, state => state.next

/-- **What a call says**, given the state of its cell: looking tells it, and moving on
tells the next one. -/
def reply : Edit → CellState → Option CellState
  | get _, state => some state
  | set _ _, _ => none
  | toggle _, state => some state.next

/-- **A call**: its answer, and the grid that it leaves behind. Where it fails, that is
the grid it was made on. -/
def call (g : Grid) : Edit → Except MapError (Option CellState) × Grid
  | get cell => ((g.get? cell).map some, g)
  | set cell state =>
    match g.set? cell state with
    | .ok edited => (.ok none, edited)
    | .error e => (.error e, g)
  | toggle cell =>
    match g.toggle? cell with
    | .ok (state, edited) => (.ok (some state), edited)
    | .error e => (.error e, g)

variable {g : Grid} {e : Edit}

theorem get?_of_contains {cell : Cell} (h : g.layout.contains cell = true) :
    g.get? cell = .ok (g.stateAt cell) := if_pos h

theorem set?_of_contains {cell : Cell} (h : g.layout.contains cell = true) (state : CellState) :
    g.set? cell state = .ok (g.replace cell state) := if_pos h

theorem toggle?_of_contains {cell : Cell} (h : g.layout.contains cell = true) :
    g.toggle? cell = .ok ((g.stateAt cell).next, g.replace cell (g.stateAt cell).next) := by
  rw [Grid.toggle?, get?_of_contains h]
  simp only [bind, Except.bind, set?_of_contains h]
  rfl

/-- **A call on a cell of the map** replaces the state of that cell. -/
theorem call_of_contains (h : g.layout.contains e.cell = true) :
    e.call g = (.ok (e.reply (g.stateAt e.cell)),
      g.replace e.cell (e.effect (g.stateAt e.cell))) := by
  cases e with
  | get cell =>
    change g.layout.contains cell = true at h
    -- a state replaced by itself is as good as not replaced
    show ((g.get? cell).map some, g) = (_, g.replace cell (g.stateAt cell))
    rw [get?_of_contains h, Grid.replace_stateAt h]
    rfl
  | set cell state =>
    change g.layout.contains cell = true at h
    rw [call, set?_of_contains h]
    rfl
  | toggle cell =>
    change g.layout.contains cell = true at h
    rw [call, toggle?_of_contains h]
    rfl

/-- **A call on another cell** fails, and leaves the grid as it is. -/
theorem call_of_outside (h : g.layout.contains e.cell = false) :
    e.call g = (.error (g.layout.outside e.cell), g) := by
  have hget : g.get? e.cell = .error (g.layout.outside e.cell) := if_neg (ne_true_of_eq_false h)
  cases e with
  | get cell =>
    rw [call, show g.get? cell = _ from hget]
    rfl
  | set cell state =>
    have hset : g.set? cell state = .error (g.layout.outside cell) :=
      if_neg (ne_true_of_eq_false h)
    rw [call, hset]
    rfl
  | toggle cell =>
    rw [call, Grid.toggle?, show g.get? cell = _ from hget]
    rfl

theorem layout_call (g : Grid) (e : Edit) : (e.call g).2.layout = g.layout := by
  by_cases h : g.layout.contains e.cell = true
  · rw [call_of_contains h]
    rfl
  · rw [call_of_outside (Bool.eq_false_of_not_eq_true h)]

/-- **One step for one cell**: a call on it has its effect there, and any other call has
none. -/
theorem stateAt_call {cell : Cell} (hcell : g.layout.contains cell = true) :
    (e.call g).2.stateAt cell
      = if e.cell = cell then e.effect (g.stateAt cell) else g.stateAt cell := by
  by_cases h : g.layout.contains e.cell = true
  · rw [call_of_contains h]
    show (g.replace e.cell (e.effect (g.stateAt e.cell))).stateAt cell = _
    rw [Grid.stateAt_replace h hcell]
    by_cases heq : e.cell = cell
    · rw [if_pos heq, if_pos heq.symm, heq]
    · rw [if_neg heq, if_neg fun hce => heq hce.symm]
  · -- a call that fails is not on a cell of the map
    have hne : e.cell ≠ cell := fun heq => h (heq ▸ hcell)
    rw [call_of_outside (Bool.eq_false_of_not_eq_true h), if_neg hne]

end Edit

/-! ## A run of calls -/

namespace Grid

/-- **The grid after a run of calls**, the failed ones included. -/
def after (g : Grid) (edits : List Edit) : Grid :=
  edits.foldl (fun g e => (e.call g).2) g

variable {g : Grid} {cell : Cell} {edits : List Edit}

theorem after_cons (g : Grid) (e : Edit) (edits : List Edit) :
    g.after (e :: edits) = (e.call g).2.after edits := rfl

theorem layout_after (g : Grid) (edits : List Edit) : (g.after edits).layout = g.layout := by
  induction edits generalizing g with
  | nil => rfl
  | cons e rest ih => rw [after_cons, ih, Edit.layout_call]

/-- **The calls on a cell**, in their order. -/
def editsAt (cell : Cell) (edits : List Edit) : List Edit :=
  edits.filter fun e => e.cell = cell

theorem editsAt_cons (cell : Cell) (e : Edit) (edits : List Edit) :
    editsAt cell (e :: edits)
      = if e.cell = cell then e :: editsAt cell edits else editsAt cell edits := by
  simp only [editsAt, List.filter_cons, decide_eq_true_eq]

/-- **A cell goes through the calls on it**, whatever calls come between them. -/
theorem stateAt_after (hcell : g.layout.contains cell = true) :
    (g.after edits).stateAt cell
      = (editsAt cell edits).foldl (fun state e => e.effect state) (g.stateAt cell) := by
  induction edits generalizing g with
  | nil => rfl
  | cons e rest ih =>
    rw [after_cons, ih (Edit.layout_call g e ▸ hcell), Edit.stateAt_call hcell, editsAt_cons]
    split <;> rfl

/-- Moving on is counted modulo three. -/
theorem ordinal_foldl_effect (h : ∀ e ∈ edits, e = .toggle cell) (state : CellState) :
    (edits.foldl (fun state e => e.effect state) state).ordinal
      = (state.ordinal + edits.length) % 3 := by
  induction edits generalizing state with
  | nil => exact (Nat.mod_eq_of_lt state.ordinal_lt).symm
  | cons e rest ih =>
    obtain rfl := h e List.mem_cons_self
    rw [List.foldl_cons, ih fun e he => h e (List.mem_cons_of_mem _ he), List.length_cons]
    show (state.next.ordinal + rest.length) % 3 = _
    rw [CellState.ordinal_next, Nat.mod_add_mod, Nat.add_assoc, Nat.add_comm 1]

/-- **A cell that is only moved on** goes around as often as it is. -/
theorem ordinal_stateAt_after (hcell : g.layout.contains cell = true)
    (h : ∀ e ∈ edits, e.cell = cell → e = .toggle cell) :
    ((g.after edits).stateAt cell).ordinal
      = ((g.stateAt cell).ordinal + edits.count (.toggle cell)) % 3 := by
  have hall : ∀ e ∈ editsAt cell edits, e = .toggle cell := by
    intro e he
    obtain ⟨hmem, heq⟩ := List.mem_filter.mp he
    exact h e hmem (of_decide_eq_true heq)
  have hlength : (editsAt cell edits).length = edits.count (.toggle cell) := by
    rw [editsAt, ← List.countP_eq_length_filter, List.count_eq_countP]
    refine List.countP_congr fun e he => ?_
    rw [decide_eq_true_eq, beq_iff_eq]
    exact ⟨h e he, fun heq => heq ▸ rfl⟩
  rw [stateAt_after hcell, ordinal_foldl_effect hall, hlength]

/-! ## What is read off -/

/-- **Two lists account for a grid**: they name each minterm once, the first as many as
cells are on, the second as many as are open, and with the cells that are off these are
all there are. -/
structure Accounts (g : Grid) (ms ds : List Nat) : Prop where
  /-- The minterms are ascending. -/
  ascending_minterms : ms.Pairwise (· < ·)
  /-- So are the don't-cares. -/
  ascending_dontCares : ds.Pairwise (· < ·)
  /-- No minterm is a don't-care. -/
  disjoint : ms.Disjoint ds
  /-- There is a minterm for each cell that is on. -/
  length_minterms : ms.length = g.count .on
  /-- There is a don't-care for each cell that is open. -/
  length_dontCares : ds.length = g.count .dontCare
  /-- All other cells are off. -/
  total : ms.length + ds.length + g.count .off = g.layout.cellCount

/-- **What is read off a grid** accounts for it. -/
theorem accounts_extract (g : Grid) : g.Accounts g.extract.1 g.extract.2 where
  ascending_minterms := pairwise_ascending _
  ascending_dontCares := pairwise_ascending _
  disjoint := fun m hon hopen => by
    have hstate := (mem_mintermsIn.mp hon).2
    rw [(mem_mintermsIn.mp hopen).2] at hstate
    cases hstate
  length_minterms := length_mintermsIn g .on
  length_dontCares := length_mintermsIn g .dontCare
  total := by
    show (g.mintermsIn .on).length + (g.mintermsIn .dontCare).length + _ = _
    rw [length_mintermsIn, length_mintermsIn, sum_count]

/-- **Any run of calls**, at any point of it: the grid has a state for each cell of the
map it had. A call on a cell beside the map fails and changes nothing, any other is answered.
The state of a cell comes from the one it had by the calls on that cell alone, and if
these only move it on, by their number modulo three. What is read off accounts for all
cells. -/
theorem after_edits (g : Grid) (edits : List Edit) :
    ((g.after edits).layout = g.layout ∧ (g.after edits).cells.length = g.layout.cellCount)
      ∧ (∀ e : Edit, g.layout.contains e.cell = false →
          e.call (g.after edits)
            = (.error (.cellOutOfRange e.cell g.layout.rows g.layout.cols), g.after edits))
      ∧ (∀ e : Edit, g.layout.contains e.cell = true →
          (e.call (g.after edits)).1 = .ok (e.reply ((g.after edits).stateAt e.cell)))
      ∧ (∀ cell, g.layout.contains cell = true →
          (g.after edits).get? cell
              = .ok ((editsAt cell edits).foldl (fun state e => e.effect state) (g.stateAt cell))
            ∧ ((∀ e ∈ edits, e.cell = cell → e = .toggle cell) →
              ((g.after edits).stateAt cell).ordinal
                = ((g.stateAt cell).ordinal + edits.count (.toggle cell)) % 3))
      ∧ (g.after edits).Accounts (g.after edits).extract.1 (g.after edits).extract.2 := by
  have hlayout := layout_after g edits
  refine ⟨⟨hlayout, hlayout ▸ (g.after edits).length_cells⟩, fun e he => ?_, fun e he => ?_,
    fun cell hcell => ⟨?_, ordinal_stateAt_after hcell⟩, accounts_extract _⟩
  · rw [Edit.call_of_outside (hlayout.symm ▸ he), Layout.outside, hlayout]
  · rw [Edit.call_of_contains (hlayout.symm ▸ he)]
  · rw [get?_eq_ok_iff, hlayout]
    exact ⟨hcell, stateAt_after hcell⟩

/-- The largest map, off everywhere. -/
def largestBlank : Grid := blank ⟨4, by decide, by decide⟩

/-- Calls on two cells in turn, and one beside the map. -/
def mixedEdits : List Edit :=
  [.toggle ⟨0, 1⟩, .set ⟨1, 1⟩ .dontCare, .toggle ⟨4, 0⟩, .toggle ⟨0, 1⟩, .get ⟨1, 1⟩,
    .toggle ⟨1, 1⟩]

/-- The theorem on these calls: the cell that was moved on twice is open, and the other
one, set to open and moved on, is off. -/
theorem after_edits_mixed :
    (Edit.toggle ⟨4, 0⟩).call (largestBlank.after mixedEdits)
        = (.error (.cellOutOfRange ⟨4, 0⟩ 4 4), largestBlank.after mixedEdits)
      ∧ ((Edit.get ⟨0, 1⟩).call (largestBlank.after mixedEdits)).1 = .ok (some .dontCare)
      ∧ (largestBlank.after mixedEdits).get? ⟨1, 1⟩ = .ok .off
      ∧ ((largestBlank.after mixedEdits).stateAt ⟨0, 1⟩).ordinal = 2 := by
  obtain ⟨-, houtside, hreply, hcells, -⟩ := after_edits largestBlank mixedEdits
  exact ⟨houtside (.toggle ⟨4, 0⟩) rfl, hreply (.get ⟨0, 1⟩) rfl, (hcells ⟨1, 1⟩ rfl).1,
    (hcells ⟨0, 1⟩ rfl).2 (by decide)⟩

end Grid

end Karnaugh
