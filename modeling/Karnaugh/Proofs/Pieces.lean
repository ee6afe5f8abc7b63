import Karnaugh.Proofs.Regions
import Karnaugh.Shape.Synthesis

/-!
# The pieces of a region and their shapes

A region that goes over an edge of the map is cut there, and each of its pieces
is drawn for itself. The pieces are the segments of its rows by those of its
columns (`Region.map_pieces_ofSpans`). As segments of one span are apart, so are
the pieces, and together they have the cells of the region. Which edge a piece is
open to is decided by the region, too: it is the one that the piece touches and
that the region goes on across, in another piece (`Piece.opensTo_iff`). A region
that has all columns touches the left and the right edge as well, but with one
and the same piece.

Only then comes the geometry. A shape needs the box of the first cell of its
piece and that of the last, so a region needs those of its corners
(`Region.corners`), and the first that is absent is the one that is reported
(`Region.shapes_eq_error_iff`). Where none is, every piece has its shape
(`Region.exists_shapes_iff`); corners are on the map, so a geometry that has the
map has all of them (`Region.shapes_spec`). How the shapes are cut has been
settled before (`Region.map_cut_shapes`).
-/

namespace Karnaugh

/-! ## Steps that may fail -/

section Steps

variable {α β ε : Type} {f : α → Except ε β} {xs : List α}

theorem exists_of_map_eq_ok {g : α → β} {x : Except ε α} {y : β} (h : x.map g = .ok y) :
    ∃ a, x = .ok a ∧ g a = y := by
  cases x with
  | error e => cases h
  | ok a => exact ⟨a, rfl, Except.ok.inj h⟩

/-- Steps give a list if each gives a member of it. -/
theorem mapM_eq_ok_iff {ys : List β} :
    xs.mapM f = .ok ys ↔ List.Forall₂ (fun x y => f x = .ok y) xs ys := by
  induction xs generalizing ys with
  | nil => simp [pure, Except.pure, eq_comm]
  | cons x rest ih =>
    rw [List.mapM_cons, List.forall₂_cons_left_iff]
    cases hx : f x with
    | error e => simp [bind, Except.bind]
    | ok y =>
      cases hrest : rest.mapM f with
      | error e => simp [← ih, hrest, bind, Except.bind]
      | ok rest' => simp [← ih, hrest, bind, Except.bind, pure, Except.pure, eq_comm]

/-- Steps fail with the error of the first that does. -/
theorem mapM_eq_error_iff {e : ε} :
    xs.mapM f = .error e ↔ ∃ before x after, xs = before ++ x :: after
      ∧ (∀ y ∈ before, ∃ b, f y = .ok b) ∧ f x = .error e := by
  constructor
  · intro h
    induction xs with
    | nil => cases h
    | cons x rest ih =>
      rw [List.mapM_cons] at h
      cases hx : f x with
      | error e' =>
        rw [hx] at h
        cases h
        exact ⟨[], x, rest, rfl, by simp, hx⟩
      | ok y =>
        cases hrest : rest.mapM f with
        | ok ys =>
          rw [hx, hrest] at h
          cases h
        | error e' =>
          rw [hx, hrest] at h
          cases h
          obtain ⟨before, x', after, rfl, hbefore, herror⟩ := ih hrest
          exact ⟨x :: before, x', after, rfl, List.forall_mem_cons.mpr ⟨⟨y, hx⟩, hbefore⟩, herror⟩
  · rintro ⟨before, x, after, rfl, hbefore, herror⟩
    induction before with
    | nil =>
      rw [List.nil_append, List.mapM_cons, herror]
      rfl
    | cons z before ih =>
      obtain ⟨⟨b, hb⟩, hrest⟩ := List.forall_mem_cons.mp hbefore
      rw [List.cons_append, List.mapM_cons, hb, ih hrest]
      rfl

/-- Some step fails if one of them does on its own. -/
theorem exists_mapM_eq_error_iff :
    (∃ e, xs.mapM f = .error e) ↔ ∃ x ∈ xs, ∃ e, f x = .error e := by
  constructor
  · rintro ⟨e, h⟩
    obtain ⟨before, x, after, rfl, -, herror⟩ := mapM_eq_error_iff.mp h
    exact ⟨x, List.mem_append_cons_self, e, herror⟩
  · rintro ⟨x, hx, e, herror⟩
    cases h : xs.mapM f with
    | error e' => exact ⟨e', rfl⟩
    | ok ys =>
      obtain ⟨k, hk, rfl⟩ := List.mem_iff_getElem.mp hx
      have hall := mapM_eq_ok_iff.mp h
      cases herror.symm.trans (hall.get hk (hall.length_eq ▸ hk))

end Steps

/-! ## Segments -/

namespace AxisSpan

variable {s : AxisSpan} {extent : Nat} {segment : Nat × Nat}

theorem Fits.bounds_of_mem_segments (h : s.Fits extent) (hs : segment ∈ s.segments) :
    segment.1 ≤ segment.2 ∧ segment.2 < extent := by
  cases s with
  | run first last =>
    rw [List.mem_singleton.mp hs]
    exact h
  | wrap headEnd tailStart length =>
    obtain ⟨rfl, hgap, hlt⟩ := h
    simp only [segments, firstSegment, lastSegment, List.mem_cons, List.not_mem_nil,
      or_false] at hs
    rcases hs with rfl | rfl
    · exact ⟨Nat.zero_le _, show headEnd < length by omega⟩
    · exact ⟨show tailStart ≤ length - 1 by omega, show length - 1 < length by omega⟩

/-- The segments of a span are apart, and in order. -/
theorem Fits.pairwise_segments (h : s.Fits extent) :
    s.segments.Pairwise fun before after => before.2 < after.1 := by
  cases s with
  | run first last => exact List.pairwise_singleton _ _
  | wrap headEnd tailStart length =>
    obtain ⟨-, hgap, -⟩ := h
    exact List.pairwise_pair.mpr (show headEnd < tailStart by omega)

/-- **A span goes on beyond a segment** from one end of the axis at the other, if
the segment has the one and the span has the other elsewhere. -/
def GoesOn (s : AxisSpan) (segment : Nat × Nat) (near far : Nat) : Prop :=
  (segment.1 ≤ near ∧ near ≤ segment.2) ∧ s.Contains far
    ∧ ¬(segment.1 ≤ far ∧ far ≤ segment.2)

/-- From the start of the axis a span goes on if it wraps, beyond its first
segment. -/
theorem Fits.goesOn_start_iff (h : s.Fits extent) (hs : segment ∈ s.segments) :
    s.GoesOn segment 0 (extent - 1) ↔ s.IsWrap ∧ segment = s.firstSegment := by
  cases s with
  | run first last =>
    obtain rfl := List.mem_singleton.mp hs
    refine iff_of_false ?_ (fun ⟨⟨_, _, _, hwrap⟩, _⟩ => nomatch hwrap)
    rintro ⟨-, hfar, hout⟩
    exact hout (contains_run.mp hfar)
  | wrap headEnd tailStart length =>
    obtain ⟨rfl, hgap, hlt⟩ := h
    simp only [segments, firstSegment, lastSegment, List.mem_cons, List.not_mem_nil,
      or_false] at hs
    rw [and_iff_right ⟨headEnd, tailStart, length, rfl⟩, GoesOn, contains_wrap, firstSegment]
    rcases hs with rfl | rfl
    · exact iff_of_true ⟨by omega, by omega, by omega⟩ rfl
    · refine iff_of_false (by omega) fun heq => ?_
      have hzero : tailStart = 0 := congrArg Prod.fst heq
      omega

/-- From the end of the axis a span goes on if it wraps, beyond its last
segment. -/
theorem Fits.goesOn_end_iff (h : s.Fits extent) (hs : segment ∈ s.segments) :
    s.GoesOn segment (extent - 1) 0 ↔ s.IsWrap ∧ segment = s.lastSegment := by
  cases s with
  | run first last =>
    obtain rfl := List.mem_singleton.mp hs
    refine iff_of_false ?_ (fun ⟨⟨_, _, _, hwrap⟩, _⟩ => nomatch hwrap)
    rintro ⟨-, hfar, hout⟩
    exact hout (contains_run.mp hfar)
  | wrap headEnd tailStart length =>
    obtain ⟨rfl, hgap, hlt⟩ := h
    simp only [segments, firstSegment, lastSegment, List.mem_cons, List.not_mem_nil,
      or_false] at hs
    rw [and_iff_right ⟨headEnd, tailStart, length, rfl⟩, GoesOn, contains_wrap, lastSegment]
    rcases hs with rfl | rfl
    · refine iff_of_false (by omega) fun heq => ?_
      have hzero : 0 = tailStart := congrArg Prod.fst heq
      omega
    · exact iff_of_true ⟨by omega, by omega, by omega⟩ rfl

/-- The two segments of a span that wraps are different. -/
theorem Fits.firstSegment_ne (h : s.Fits extent) (hwrap : s.IsWrap) :
    s.firstSegment ≠ s.lastSegment := by
  obtain ⟨headEnd, tailStart, length, rfl⟩ := hwrap
  obtain ⟨-, hgap, -⟩ := h
  intro heq
  have hzero : 0 = tailStart := congrArg Prod.fst heq
  omega

end AxisSpan

/-! ## Pieces -/

/-- **The cells of a piece**: those in its rows and columns. -/
def Piece.Contains (piece : Piece) (cell : Cell) : Prop :=
  (piece.rows.1 ≤ cell.row ∧ cell.row ≤ piece.rows.2)
    ∧ piece.cols.1 ≤ cell.col ∧ cell.col ≤ piece.cols.2

/-- **Two pieces are disjoint** if they share no cell. -/
def Piece.Disjoint (p q : Piece) : Prop :=
  ∀ cell, p.Contains cell → ¬q.Contains cell

/-- Pairs of what is in two lists are ordered if their first parts are or their
second parts are. -/
theorem pairwise_product {α β : Type} {R : α → α → Prop} {S : β → β → Prop} {xs : List α}
    {ys : List β} (hx : xs.Pairwise R) (hy : ys.Pairwise S) :
    (xs.product ys).Pairwise fun p q => R p.1 q.1 ∨ S p.2 q.2 := by
  refine List.pairwise_flatMap.mpr ⟨fun x _ => ?_, hx.imp fun hxx' p hp q hq => ?_⟩
  · exact List.pairwise_map.mpr (hy.imp Or.inr)
  · obtain ⟨y, -, rfl⟩ := List.mem_map.mp hp
    obtain ⟨y', -, rfl⟩ := List.mem_map.mp hq
    exact Or.inl hxx'

namespace Region

variable {rowSpan colSpan : AxisSpan} {piece : Piece}

/-- **The pieces of a region** are the pieces of its rows by those of its
columns, from the top and from the left. -/
theorem map_pieces_ofSpans (rowSpan colSpan : AxisSpan) :
    (ofSpans rowSpan colSpan).pieces.map (fun piece => (piece.rows, piece.cols))
      = rowSpan.segments.product colSpan.segments := by
  cases rowSpan
  all_goals
    cases colSpan
    all_goals rfl

theorem mem_segments_of_mem_pieces (h : piece ∈ (ofSpans rowSpan colSpan).pieces) :
    piece.rows ∈ rowSpan.segments ∧ piece.cols ∈ colSpan.segments := by
  have hmem := List.mem_map_of_mem (f := fun piece : Piece => (piece.rows, piece.cols)) h
  rw [map_pieces_ofSpans] at hmem
  exact List.pair_mem_product.mp hmem

/-- The cells of a region are those of its pieces. -/
theorem exists_piece_contains_iff {cell : Cell} :
    (∃ piece ∈ (ofSpans rowSpan colSpan).pieces, piece.Contains cell)
      ↔ (ofSpans rowSpan colSpan).Contains cell := by
  rw [Contains, rows_ofSpans, cols_ofSpans]
  constructor
  · rintro ⟨piece, hpiece, hrow, hcol⟩
    obtain ⟨hrows, hcols⟩ := mem_segments_of_mem_pieces hpiece
    exact ⟨⟨piece.rows, hrows, hrow⟩, ⟨piece.cols, hcols, hcol⟩⟩
  · rintro ⟨⟨rows, hrows, hrow⟩, ⟨cols, hcols, hcol⟩⟩
    have hmem : (rows, cols) ∈ rowSpan.segments.product colSpan.segments :=
      List.pair_mem_product.mpr ⟨hrows, hcols⟩
    rw [← map_pieces_ofSpans] at hmem
    obtain ⟨piece, hpiece, heq⟩ := List.mem_map.mp hmem
    obtain ⟨rfl, rfl⟩ := Prod.mk.inj heq
    exact ⟨piece, hpiece, hrow, hcol⟩

/-- **The pieces of a region are disjoint**: of any two, one is above the other
or to the left of it. -/
theorem pairwise_pieces {rowExtent colExtent : Nat} (hrows : rowSpan.Fits rowExtent)
    (hcols : colSpan.Fits colExtent) :
    (ofSpans rowSpan colSpan).pieces.Pairwise Piece.Disjoint := by
  have happart := pairwise_product hrows.pairwise_segments hcols.pairwise_segments
  rw [← map_pieces_ofSpans, List.pairwise_map] at happart
  refine happart.imp fun {p q} hpq cell hp hq => ?_
  obtain ⟨⟨-, hrowLe⟩, -, hcolLe⟩ := hp
  obtain ⟨⟨hrowGe, -⟩, hcolGe, -⟩ := hq
  rcases hpq with habove | hleft
  · exact absurd (hrowGe.trans hrowLe) habove.not_ge
  · exact absurd (hcolGe.trans hcolLe) hleft.not_ge

/-- **How a region of a kind is cut.** -/
def cuts : Region → List Cut
  | rectangle .. => [.whole]
  | wrappedRows .. => [.half .top, .half .bottom]
  | wrappedCols .. => [.half .left, .half .right]
  | wrappedBoth .. =>
    [.quarter .topLeft, .quarter .topRight, .quarter .bottomLeft, .quarter .bottomRight]

theorem map_cut_pieces (region : Region) : region.pieces.map Piece.cut = region.cuts := by
  cases region
  all_goals rfl

/-- **Halves** are the two segments of the axis on which a region wraps. -/
theorem half_of_mem_pieces (h : piece ∈ (ofSpans rowSpan colSpan).pieces) {side : Side}
    (hcut : piece.cut = .half side) :
    (rowSpan.IsWrap ∧ ¬colSpan.IsWrap
        ∧ (side = .top ∧ piece.rows = rowSpan.firstSegment
          ∨ side = .bottom ∧ piece.rows = rowSpan.lastSegment))
      ∨ (¬rowSpan.IsWrap ∧ colSpan.IsWrap
        ∧ (side = .left ∧ piece.cols = colSpan.firstSegment
          ∨ side = .right ∧ piece.cols = colSpan.lastSegment)) := by
  cases rowSpan
  all_goals
    cases colSpan
    all_goals
      simp only [ofSpans, AxisSpan.isWrapped, pieces, List.mem_cons, List.not_mem_nil,
        or_false] at h
      simp only [AxisSpan.IsWrap]
      grind

end Region

/-! ## Open sides -/

/-- **A cell at an edge of the map.** -/
def Layout.AtEdge (layout : Layout) : Side → Cell → Prop
  | .top, cell => cell.row = 0
  | .right, cell => cell.col = layout.cols - 1
  | .bottom, cell => cell.row = layout.rows - 1
  | .left, cell => cell.col = 0

/-- **The cell across an edge** from one at this edge: the one at the opposite
edge, in the same row or column. -/
def Layout.acrossEdge (layout : Layout) : Side → Cell → Cell
  | .top, cell => ⟨layout.rows - 1, cell.col⟩
  | .right, cell => ⟨cell.row, 0⟩
  | .bottom, cell => ⟨0, cell.col⟩
  | .left, cell => ⟨cell.row, layout.cols - 1⟩

/-- **A piece opens to an edge of the map** if it touches the edge and the region
goes on across it: the cells across from those of the piece are in the region,
and not in the piece. -/
structure Piece.OpensTo (layout : Layout) (region : Region) (piece : Piece) (side : Side) :
    Prop where
  /-- It touches the edge. -/
  touches : ∃ cell, piece.Contains cell ∧ layout.AtEdge side cell
  /-- The region goes on across the edge, in another piece. -/
  continues : ∀ cell, piece.Contains cell → layout.AtEdge side cell →
    region.Contains (layout.acrossEdge side cell)
      ∧ ¬piece.Contains (layout.acrossEdge side cell)

namespace Piece

variable {layout : Layout} {region : Region} {piece : Piece}

/-- Along a row a piece has what the region has, so it is by the rows alone that
the region goes on from one row in another. -/
theorem goesOn_rows_iff (hcols : piece.cols ∈ region.cols.segments)
    (hle : piece.cols.1 ≤ piece.cols.2) (near far : Nat) :
    ((∃ cell, piece.Contains cell ∧ cell.row = near)
        ∧ ∀ cell, piece.Contains cell → cell.row = near →
          region.Contains ⟨far, cell.col⟩ ∧ ¬piece.Contains ⟨far, cell.col⟩)
      ↔ region.rows.GoesOn piece.rows near far := by
  constructor
  · rintro ⟨⟨⟨row, col⟩, hcell, rfl⟩, hcontinues⟩
    obtain ⟨hin, hout⟩ := hcontinues _ hcell rfl
    exact ⟨hcell.1, hin.1, fun hfar => hout ⟨hfar, hcell.2⟩⟩
  · rintro ⟨hnear, hfar, hout⟩
    refine ⟨⟨⟨near, piece.cols.1⟩, ⟨hnear, le_rfl, hle⟩, rfl⟩, ?_⟩
    rintro ⟨row, col⟩ ⟨-, hcol⟩ -
    exact ⟨⟨hfar, piece.cols, hcols, hcol⟩, fun hin => hout hin.1⟩

/-- Along a column a piece has what the region has. -/
theorem goesOn_cols_iff (hrows : piece.rows ∈ region.rows.segments)
    (hle : piece.rows.1 ≤ piece.rows.2) (near far : Nat) :
    ((∃ cell, piece.Contains cell ∧ cell.col = near)
        ∧ ∀ cell, piece.Contains cell → cell.col = near →
          region.Contains ⟨cell.row, far⟩ ∧ ¬piece.Contains ⟨cell.row, far⟩)
      ↔ region.cols.GoesOn piece.cols near far := by
  constructor
  · rintro ⟨⟨⟨row, col⟩, hcell, rfl⟩, hcontinues⟩
    obtain ⟨hin, hout⟩ := hcontinues _ hcell rfl
    exact ⟨hcell.2, hin.2, fun hfar => hout ⟨hcell.1, hfar⟩⟩
  · rintro ⟨hnear, hfar, hout⟩
    refine ⟨⟨⟨piece.rows.1, near⟩, ⟨⟨le_rfl, hle⟩, hnear⟩, rfl⟩, ?_⟩
    rintro ⟨row, col⟩ ⟨hrow, -⟩ -
    exact ⟨⟨⟨piece.rows, hrows, hrow⟩, hfar⟩, fun hin => hout hin.2⟩

theorem opensTo_iff_and {side : Side} :
    piece.OpensTo layout region side
      ↔ (∃ cell, piece.Contains cell ∧ layout.AtEdge side cell)
        ∧ ∀ cell, piece.Contains cell → layout.AtEdge side cell →
          region.Contains (layout.acrossEdge side cell)
            ∧ ¬piece.Contains (layout.acrossEdge side cell) :=
  ⟨fun h => ⟨h.touches, h.continues⟩, fun h => ⟨h.1, h.2⟩⟩

/-- **Where a piece opens to**: to the edges where the span across them wraps, if
it has the segment there. -/
theorem opensTo_iff {rowSpan colSpan : AxisSpan} (hrow : rowSpan.Fits layout.rows)
    (hcol : colSpan.Fits layout.cols) (h : piece ∈ (Region.ofSpans rowSpan colSpan).pieces)
    (side : Side) :
    piece.OpensTo layout (Region.ofSpans rowSpan colSpan) side
      ↔ match side with
        | .top => rowSpan.IsWrap ∧ piece.rows = rowSpan.firstSegment
        | .right => colSpan.IsWrap ∧ piece.cols = colSpan.lastSegment
        | .bottom => rowSpan.IsWrap ∧ piece.rows = rowSpan.lastSegment
        | .left => colSpan.IsWrap ∧ piece.cols = colSpan.firstSegment := by
  obtain ⟨hrows, hcols⟩ := Region.mem_segments_of_mem_pieces h
  have hrowLe := (hrow.bounds_of_mem_segments hrows).1
  have hcolLe := (hcol.bounds_of_mem_segments hcols).1
  have hbyRows := goesOn_rows_iff ((Region.cols_ofSpans rowSpan colSpan).symm ▸ hcols) hcolLe
  have hbyCols := goesOn_cols_iff ((Region.rows_ofSpans rowSpan colSpan).symm ▸ hrows) hrowLe
  rw [Region.rows_ofSpans] at hbyRows
  rw [Region.cols_ofSpans] at hbyCols
  rw [opensTo_iff_and]
  cases side with
  | top => exact (hbyRows 0 (layout.rows - 1)).trans (hrow.goesOn_start_iff hrows)
  | right => exact (hbyCols (layout.cols - 1) 0).trans (hcol.goesOn_end_iff hcols)
  | bottom => exact (hbyRows (layout.rows - 1) 0).trans (hrow.goesOn_end_iff hrows)
  | left => exact (hbyCols 0 (layout.cols - 1)).trans (hcol.goesOn_start_iff hcols)

/-- **The open side of a half** is the one edge that it opens to. -/
theorem opensTo_half_iff {rowSpan colSpan : AxisSpan} (hrow : rowSpan.Fits layout.rows)
    (hcol : colSpan.Fits layout.cols) (h : piece ∈ (Region.ofSpans rowSpan colSpan).pieces)
    {side : Side} (hcut : piece.cut = .half side) (other : Side) :
    piece.OpensTo layout (Region.ofSpans rowSpan colSpan) other ↔ other = side := by
  rw [opensTo_iff hrow hcol h other]
  rcases Region.half_of_mem_pieces h hcut with ⟨hwrap, hrun, hside⟩ | ⟨hrun, hwrap, hside⟩
  · have hne := hrow.firstSegment_ne hwrap
    rcases hside with ⟨rfl, hsegment⟩ | ⟨rfl, hsegment⟩
    all_goals
      cases other
      all_goals simp [hwrap, hrun, hsegment, hne, hne.symm]
  · have hne := hcol.firstSegment_ne hwrap
    rcases hside with ⟨rfl, hsegment⟩ | ⟨rfl, hsegment⟩
    all_goals
      cases other
      all_goals simp [hwrap, hrun, hsegment, hne, hne.symm]

end Piece

/-! ## Shapes -/

/-- A geometry **has a map** if it has a box for each of its cells. -/
def Geometry.Has (geometry : Geometry) (layout : Layout) : Prop :=
  ∀ cell, layout.contains cell = true → ∃ box, geometry cell = some box

/-- Equal cells in as many rows and columns have the map. -/
theorem UniformGeometry.has {u : UniformGeometry} {layout : Layout} (hrows : u.rows = layout.rows)
    (hcols : u.cols = layout.cols) : Geometry.Has u.boxOf layout := by
  intro cell hcell
  obtain ⟨hrow, hcol⟩ := Layout.contains_iff.mp hcell
  refine ⟨_, if_neg ?_⟩
  rw [hrows, hcols, not_or]
  exact ⟨hrow.not_ge, hcol.not_ge⟩

/-- The first of some cells that a geometry has no box for. -/
def Geometry.firstAbsent (geometry : Geometry) (cells : List Cell) : Option Cell :=
  cells.find? fun cell => (geometry cell).isNone

/-- The cells whose boxes a piece needs. -/
def Piece.corners (piece : Piece) : List Cell :=
  [⟨piece.rows.1, piece.cols.1⟩, ⟨piece.rows.2, piece.cols.2⟩]

/-- **The cells whose boxes a region needs**: the corners of its pieces, in
order. -/
def Region.corners (region : Region) : List Cell := region.pieces.flatMap Piece.corners

/-- **A shape is drawn around a piece**: it is cut as the piece is, and runs at
the distance of the padding around the boxes of the first and the last cell. -/
structure Piece.DrawnBy (geometry : Geometry) (style : LoopStyle) (piece : Piece) (shape : Shape) :
    Prop where
  /-- The cut is that of the piece. -/
  cut_eq : shape.cut = piece.cut
  /-- The box reaches from the first cell to the last. -/
  bounds_eq : ∃ first last, geometry ⟨piece.rows.1, piece.cols.1⟩ = some first
    ∧ geometry ⟨piece.rows.2, piece.cols.2⟩ = some last
    ∧ shape.bounds.x = first.x - style.padding
    ∧ shape.bounds.y = first.y - style.padding
    ∧ shape.bounds.width = last.x + last.width - first.x + 2 * style.padding
    ∧ shape.bounds.height = last.y + last.height - first.y + 2 * style.padding
  /-- The corners are rounded as the style says. -/
  cornerRadius_eq : shape.cornerRadius = style.cornerRadius

section Shapes

variable {geometry : Geometry} {style : LoopStyle} {piece : Piece} {cell : Cell}

theorem Geometry.require_of_some {box : Box} (h : geometry cell = some box) :
    geometry.require cell = .ok box := by
  rw [require, h]

theorem Geometry.require_of_none (h : geometry cell = none) :
    geometry.require cell = .error (.missingCellGeometry cell) := by
  rw [require, h]

theorem Geometry.firstAbsent_append (before after : List Cell) :
    geometry.firstAbsent (before ++ after)
      = (geometry.firstAbsent before).or (geometry.firstAbsent after) := List.find?_append

theorem Geometry.firstAbsent_eq_none_iff {cells : List Cell} :
    geometry.firstAbsent cells = none ↔ ∀ cell ∈ cells, (geometry cell).isSome = true := by
  simp [firstAbsent, List.find?_eq_none, Option.isSome_iff_ne_none]

/-- A piece lacks its first corner, or its last, or has its shape. -/
theorem Piece.shape_cases (geometry : Geometry) (style : LoopStyle) (piece : Piece) :
    (∃ cell, geometry.firstAbsent piece.corners = some cell
        ∧ piece.shape geometry style = .error (.missingCellGeometry cell))
      ∨ geometry.firstAbsent piece.corners = none
        ∧ ∃ shape, piece.shape geometry style = .ok shape
          ∧ piece.DrawnBy geometry style shape := by
  cases hfirst : geometry ⟨piece.rows.1, piece.cols.1⟩ with
  | none =>
    refine Or.inl ⟨⟨piece.rows.1, piece.cols.1⟩, ?_, ?_⟩
    · simp [Geometry.firstAbsent, corners, hfirst]
    · rw [shape, topLeft, Geometry.require_of_none hfirst]
      rfl
  | some first =>
    cases hlast : geometry ⟨piece.rows.2, piece.cols.2⟩ with
    | none =>
      refine Or.inl ⟨⟨piece.rows.2, piece.cols.2⟩, ?_, ?_⟩
      · simp [Geometry.firstAbsent, corners, hfirst, hlast]
      · rw [shape, topLeft, bottomRight, Geometry.require_of_some hfirst,
          Geometry.require_of_none hlast]
        rfl
    | some last =>
      refine Or.inr ⟨?_, ⟨piece.cut, around style.padding first last, style.cornerRadius⟩, ?_, ?_⟩
      · simp [Geometry.firstAbsent, corners, hfirst, hlast]
      · rw [shape, topLeft, bottomRight, Geometry.require_of_some hfirst,
          Geometry.require_of_some hlast]
        rfl
      · exact ⟨rfl, ⟨first, last, hfirst, hlast, rfl, rfl, rfl, rfl⟩, rfl⟩

/-- The shape of a piece is drawn around it. -/
theorem Piece.drawnBy_of_shape {shape : Shape} (h : piece.shape geometry style = .ok shape) :
    piece.DrawnBy geometry style shape := by
  rcases piece.shape_cases geometry style with ⟨cell, -, herror⟩ | ⟨-, shape', hok, hdrawn⟩
  · cases herror.symm.trans h
  · cases hok.symm.trans h
    exact hdrawn

/-- Pieces have their shapes up to the first that lacks a corner. -/
theorem mapM_shape_cases (geometry : Geometry) (style : LoopStyle) (pieces : List Piece) :
    (∃ cell, geometry.firstAbsent (pieces.flatMap Piece.corners) = some cell
        ∧ pieces.mapM (Piece.shape geometry style) = .error (.missingCellGeometry cell))
      ∨ geometry.firstAbsent (pieces.flatMap Piece.corners) = none
        ∧ ∃ shapes, pieces.mapM (Piece.shape geometry style) = .ok shapes := by
  induction pieces with
  | nil => exact Or.inr ⟨rfl, [], rfl⟩
  | cons piece rest ih =>
    rw [List.flatMap_cons, Geometry.firstAbsent_append, List.mapM_cons]
    rcases piece.shape_cases geometry style with ⟨cell, habsent, herror⟩ | ⟨hall, shape, hok, -⟩
    · rw [habsent, herror]
      exact Or.inl ⟨cell, rfl, rfl⟩
    · rw [hall, hok]
      rcases ih with ⟨cell, habsent, herror⟩ | ⟨hrest, shapes, hoks⟩
      · rw [habsent, herror]
        exact Or.inl ⟨cell, rfl, rfl⟩
      · rw [hrest, hoks]
        exact Or.inr ⟨rfl, shape :: shapes, rfl⟩

namespace Region

variable {layout : Layout} {minterms : List Nat} {region : Region} {shapes : List Shape}

/-- A region lacks one of its corners, or has its shapes. -/
theorem shapes_cases (geometry : Geometry) (style : LoopStyle) (region : Region) :
    (∃ cell, geometry.firstAbsent region.corners = some cell
        ∧ region.shapes geometry style = .error (.missingCellGeometry cell))
      ∨ geometry.firstAbsent region.corners = none
        ∧ ∃ shapes, region.shapes geometry style = .ok shapes :=
  mapM_shape_cases geometry style region.pieces

/-- **The error of a region** is about the first of its corners that is
absent. -/
theorem shapes_eq_error_iff {e : MapError} :
    region.shapes geometry style = .error e
      ↔ ∃ cell, geometry.firstAbsent region.corners = some cell
        ∧ e = .missingCellGeometry cell := by
  rcases shapes_cases geometry style region with ⟨cell, habsent, herror⟩ | ⟨hall, shapes, hok⟩
  · simp [habsent, herror, eq_comm]
  · simp [hall, hok]

/-- **A region has its shapes** if all of its corners have boxes. -/
theorem exists_shapes_iff :
    (∃ shapes, region.shapes geometry style = .ok shapes)
      ↔ geometry.firstAbsent region.corners = none := by
  rcases shapes_cases geometry style region with ⟨cell, habsent, herror⟩ | ⟨hall, shapes, hok⟩
  · simp [habsent, herror]
  · simp [hall, hok]

/-- There is one shape for each piece. -/
theorem forall₂_of_shapes (h : region.shapes geometry style = .ok shapes) :
    List.Forall₂ (fun piece shape => piece.shape geometry style = .ok shape)
      region.pieces shapes := mapM_eq_ok_iff.mp h

/-- **How the shapes of a region are cut**, on any geometry. -/
theorem map_cut_shapes (h : region.shapes geometry style = .ok shapes) :
    shapes.map Shape.cut = region.cuts := by
  rw [← map_cut_pieces, eq_comm, ← List.forall₂_eq_eq_eq, List.forall₂_map_left_iff,
    List.forall₂_map_right_iff]
  exact (forall₂_of_shapes h).imp fun _ _ hshape => (Piece.drawnBy_of_shape hshape).cut_eq.symm

theorem firstAbsent_corners_eq_none_iff :
    geometry.firstAbsent region.corners = none
      ↔ ∀ piece ∈ region.pieces, (geometry ⟨piece.rows.1, piece.cols.1⟩).isSome = true
        ∧ (geometry ⟨piece.rows.2, piece.cols.2⟩).isSome = true := by
  rw [Geometry.firstAbsent_eq_none_iff, corners, List.forall_mem_flatMap]
  refine forall₂_congr fun piece _ => ?_
  rw [Piece.corners, List.forall_mem_cons, List.forall_mem_singleton]

/-- The corners of a region are on the map. -/
theorem contains_corners (h : classify layout minterms = .ok region)
    (hpiece : piece ∈ region.pieces) :
    layout.contains ⟨piece.rows.1, piece.cols.1⟩ = true
      ∧ layout.contains ⟨piece.rows.2, piece.cols.2⟩ = true := by
  obtain ⟨rowSpan, colSpan, hfills, rfl⟩ := classify_eq_ok_iff.mp h
  obtain ⟨hrowFits, hcolFits⟩ := hfills.fits
  obtain ⟨hrows, hcols⟩ := mem_segments_of_mem_pieces hpiece
  obtain ⟨hrowLe, hrowLt⟩ := hrowFits.bounds_of_mem_segments hrows
  obtain ⟨hcolLe, hcolLt⟩ := hcolFits.bounds_of_mem_segments hcols
  exact ⟨Layout.contains_iff.mpr ⟨hrowLe.trans_lt hrowLt, hcolLe.trans_lt hcolLt⟩,
    Layout.contains_iff.mpr ⟨hrowLt, hcolLt⟩⟩

/-- **Every region has its shapes**, one for each piece, where the geometry
has the map. -/
theorem shapes_spec (hregion : classify layout minterms = .ok region)
    (hgeometry : geometry.Has layout) (style : LoopStyle) :
    ∃ shapes, region.shapes geometry style = .ok shapes
      ∧ List.Forall₂ (fun piece shape => piece.shape geometry style = .ok shape)
        region.pieces shapes := by
  have hboxes : geometry.firstAbsent region.corners = none := by
    refine firstAbsent_corners_eq_none_iff.mpr fun piece hpiece => ?_
    obtain ⟨hfirst, hlast⟩ := contains_corners hregion hpiece
    exact ⟨Option.isSome_iff_exists.mpr (hgeometry _ hfirst),
      Option.isSome_iff_exists.mpr (hgeometry _ hlast)⟩
  obtain ⟨shapes, hok⟩ := exists_shapes_iff.mpr hboxes
  exact ⟨shapes, hok, forall₂_of_shapes hok⟩

/-! ## Regions in pieces -/

/-- **A region is cut up**: its pieces are disjoint and have its cells, and a
half is open to the other half. -/
structure CutUp (layout : Layout) (minterms : List Nat) (region : Region) : Prop where
  /-- There are as many pieces as the kind of the region says, cut accordingly. -/
  cuts_eq : region.pieces.map Piece.cut = region.cuts
  /-- No two of them share a cell. -/
  disjoint : region.pieces.Pairwise Piece.Disjoint
  /-- Together they have the cells of the minterms. -/
  contains_iff : ∀ cell, (∃ piece ∈ region.pieces, piece.Contains cell)
    ↔ ∃ m ∈ minterms, layout.cellOf? m = .ok cell
  /-- The open side of a half is the one edge that the half touches and that the
  region goes on across. -/
  opensTo_iff : ∀ piece ∈ region.pieces, ∀ side, piece.cut = .half side →
    ∀ other, piece.OpensTo layout region other ↔ other = side

theorem cutUp_of_classify (h : classify layout minterms = .ok region) :
    region.CutUp layout minterms := by
  obtain ⟨rowSpan, colSpan, hfills, rfl⟩ := classify_eq_ok_iff.mp h
  obtain ⟨hrowFits, hcolFits⟩ := hfills.fits
  refine ⟨map_cut_pieces _, pairwise_pieces hrowFits hcolFits, fun cell => ?_, ?_⟩
  · rw [exists_piece_contains_iff, hfills.contains_iff]
    refine exists_congr fun m => and_congr_right fun hm => ?_
    rw [Layout.cellOf?_eq_ok_iff, and_iff_right (hfills.lt_cellCount m hm)]
  · exact fun piece hpiece side hcut => Piece.opensTo_half_iff hrowFits hcolFits hpiece hcut

/-- **What becomes of a region.** Its pieces are disjoint, have the cells of its
minterms, and are open to each other across the edges of the map. On a geometry
there is a shape around each piece, unless the box of a corner is absent: then
the first such corner is reported. Which kinds of shapes there are, and which
sides of them are open, is the same on all geometries and in all styles. -/
theorem pieces_and_shapes (h : classify layout minterms = .ok region) :
    region.CutUp layout minterms
      ∧ (∀ geometry style,
        ((∃ shapes, region.shapes geometry style = .ok shapes)
            ↔ ∀ piece ∈ region.pieces, (geometry ⟨piece.rows.1, piece.cols.1⟩).isSome = true
              ∧ (geometry ⟨piece.rows.2, piece.cols.2⟩).isSome = true)
          ∧ (∀ e, region.shapes geometry style = .error e
            ↔ ∃ cell, geometry.firstAbsent region.corners = some cell
              ∧ e = .missingCellGeometry cell)
          ∧ ∀ shapes, region.shapes geometry style = .ok shapes →
            List.Forall₂ (Piece.DrawnBy geometry style) region.pieces shapes)
      ∧ ∀ geometry geometry' style style' shapes shapes',
        region.shapes geometry style = .ok shapes → region.shapes geometry' style' = .ok shapes' →
          shapes.map (fun shape => (shape.kind, shape.openSides))
            = shapes'.map fun shape => (shape.kind, shape.openSides) := by
  refine ⟨cutUp_of_classify h, fun geometry style => ⟨?_, fun e => ?_, fun shapes hok => ?_⟩, ?_⟩
  · exact exists_shapes_iff.trans firstAbsent_corners_eq_none_iff
  · exact shapes_eq_error_iff
  · exact (forall₂_of_shapes hok).imp fun _ _ => Piece.drawnBy_of_shape
  · intro geometry geometry' style style' shapes shapes' hok hok'
    have hcuts : shapes.map Shape.cut = shapes'.map Shape.cut :=
      (map_cut_shapes hok).trans (map_cut_shapes hok').symm
    have hlooks := congrArg (List.map fun cut : Cut => (cut.kind, cut.openSides)) hcuts
    rwa [List.map_map, List.map_map] at hlooks

/-- The theorem at the first and the last column of a map of three variables,
where the last cell has no place: the left half is open to the left, and the
last cell is reported. -/
theorem pieces_and_shapes_outerCols :
    classify ⟨3, by decide, by decide⟩ [6, 0, 4, 2] = .ok (.wrappedCols (.run 0 1) (.wrap 0 3 4))
      ∧ (⟨.half .left, (0, 1), (0, 0)⟩ : Piece).OpensTo ⟨3, by decide, by decide⟩
        (.wrappedCols (.run 0 1) (.wrap 0 3 4)) .left
      ∧ ∀ style, (wrappedCols (.run 0 1) (.wrap 0 3 4)).shapes
          (fun cell => if cell = ⟨1, 3⟩ then none else some ⟨0, 0, 1, 1⟩) style
        = .error (.missingCellGeometry ⟨1, 3⟩) := by
  have h : classify ⟨3, by decide, by decide⟩ [6, 0, 4, 2]
      = .ok (.wrappedCols (.run 0 1) (.wrap 0 3 4)) := by decide
  obtain ⟨hcut, hshapes, -⟩ := pieces_and_shapes h
  refine ⟨h, (hcut.opensTo_iff _ (by decide) .left rfl .left).mpr rfl, fun style => ?_⟩
  exact ((hshapes _ style).2.1 _).mpr ⟨⟨1, 3⟩, rfl, rfl⟩

end Region

end Shapes

end Karnaugh
