import Karnaugh.Drawing
import Karnaugh.Proofs.Pieces
import Karnaugh.Proofs.Rounds

/-!
# Drawings and what is in them

Where the geometry has every cell of the map, every region has its shapes
(`Region.shapes_spec`). What becomes of an implicant is then one of three things
(`Canvas.drawLoop_cases`). Its minterms are not those of its pattern, and this
matters; they are no region; or there is a loop for it. A drawing goes on in all
three cases, and so it has the loops and what is skipped in the order of the
implicants, each at its place (`Canvas.drawFrom_eq`).
-/

namespace Karnaugh

/-! ## What a drawing says -/

/-- The error of a term that does not cover what is said of it. -/
def MapError.IsInconsistentImplicant : MapError → Prop
  | .inconsistentImplicant .. => True
  | _ => False

/-- The error of a group that cannot be drawn as one loop. -/
def MapError.IsInvalidGroupShape : MapError → Prop
  | .invalidGroupShape .. => True
  | _ => False

namespace Canvas

variable {canvas : Canvas} {largest index : Nat} {i : Implicant}

/-- **An implicant misstates its minterms** if they are not those of its
pattern, and this is checked. -/
def Misstates (canvas : Canvas) (i : Implicant) : Prop :=
  canvas.crossCheck = true ∧ i.pattern.covered ≠ ascending i.minterms

/-- **An implicant can be drawn** if it does not misstate its minterms, and
they have a region. -/
def CanDraw (canvas : Canvas) (i : Implicant) : Prop :=
  ¬canvas.Misstates i
    ∧ ∃ region, Region.classify canvas.layout (ascending i.minterms) = .ok region

/-- **A loop shows the implicant** at a place if it has its pattern, its
minterms and their region, and a shape for each piece of the region. -/
structure Shows (canvas : Canvas) (index : Nat) (i : Implicant) (l : Loop) : Prop where
  /-- The place. -/
  index_eq : l.index = index
  /-- The pattern. -/
  pattern_eq : l.pattern = i.pattern
  /-- The minterms, brought into order. -/
  minterms_eq : l.minterms = ascending i.minterms
  /-- Their region. -/
  region_eq : Region.classify canvas.layout (ascending i.minterms) = .ok l.region
  /-- The shapes of its pieces. -/
  shapes_eq : List.Forall₂ (fun piece shape => piece.shape canvas.geometry canvas.style = .ok shape)
    l.region.pieces l.shapes

/-- **A drawing settles an implicant** at a place: it says that the implicant
misstates its minterms, or else that they are no region, or else has a loop
for it. -/
structure Settles (canvas : Canvas) (d : Drawing) (index : Nat) (i : Implicant) : Prop where
  /-- What is reported as inconsistent misstates its minterms. -/
  inconsistent_iff : (∃ s ∈ d.skipped, s.index = index ∧ s.error.IsInconsistentImplicant)
    ↔ canvas.Misstates i
  /-- What is reported as an invalid group has no region, though it states its
  minterms. -/
  invalid_iff : (∃ s ∈ d.skipped, s.index = index ∧ s.error.IsInvalidGroupShape)
    ↔ ¬canvas.Misstates i
      ∧ ¬∃ region, Region.classify canvas.layout (ascending i.minterms) = .ok region
  /-- What has a loop can be drawn. -/
  drawn_iff : (∃ l ∈ d.loops, l.index = index) ↔ canvas.CanDraw i
  /-- The loop is one for the implicant. -/
  shows_of_mem : ∀ l ∈ d.loops, l.index = index → canvas.Shows index i l
  /-- The report is about the implicant. -/
  error_of_mem : ∀ s ∈ d.skipped, s.index = index → s.pattern = i.pattern
    ∧ (s.error = .inconsistentImplicant i.pattern i.pattern.covered (ascending i.minterms)
      ∨ ∃ fault, Region.classify canvas.layout (ascending i.minterms) = .error fault
        ∧ s.error = .invalidGroupShape (ascending i.minterms) fault)

/-! ## One implicant -/

/-- **The pieces of a loop** have the cells of its implicant, and no others. -/
theorem Shows.exists_piece_contains_iff {l : Loop} (h : canvas.Shows index i l) {cell : Cell} :
    (∃ piece ∈ l.region.pieces, piece.Contains cell)
      ↔ ∃ m ∈ i.minterms, canvas.layout.cellOf m = cell := by
  obtain ⟨rowSpan, colSpan, hfills, hregion⟩ := Region.classify_eq_ok_iff.mp h.region_eq
  rw [hregion, Region.exists_piece_contains_iff, hfills.contains_iff]
  simp only [mem_ascending]

/-- **An implicant that has what its pattern covers can be drawn**, on the map
of its variables. -/
theorem canDraw_of_faithful (hf : i.Faithful) (hn : i.pattern.numVars = canvas.layout.numVars) :
    canvas.CanDraw i := by
  have hsorted : ascending i.minterms = i.pattern.covered := by
    rw [hf, ascending_eq_self i.pattern.pairwise_covered]
  refine ⟨fun hmis => hmis.2 hsorted.symm, Region.exists_region_iff.mpr ⟨i.pattern, hn, ?_⟩⟩
  exact fun m => by rw [hsorted]

theorem checkConsistent_eq_ok (h : ¬canvas.Misstates i) :
    canvas.checkConsistent i.pattern (ascending i.minterms) = .ok () := if_neg h

theorem drawLoop_of_misstates (h : canvas.Misstates i) :
    canvas.drawLoop largest index i
      = .error (.inconsistentImplicant i.pattern i.pattern.covered (ascending i.minterms)) := by
  have hcheck : canvas.checkConsistent i.pattern (ascending i.minterms)
      = .error (.inconsistentImplicant i.pattern i.pattern.covered (ascending i.minterms)) :=
    if_pos h
  rw [drawLoop, hcheck]
  rfl

theorem drawLoop_of_fault (h : ¬canvas.Misstates i) {fault : ShapeFault}
    (hfault : Region.classify canvas.layout (ascending i.minterms) = .error fault) :
    canvas.drawLoop largest index i
      = .error (.invalidGroupShape (ascending i.minterms) fault) := by
  rw [drawLoop, checkConsistent_eq_ok h, hfault]
  rfl

/-- The loop of an implicant with its region and the shapes of it. -/
def loopOf (canvas : Canvas) (largest index : Nat) (i : Implicant) (region : Region)
    (shapes : List Shape) : Loop where
  index
  colorIndex := index % canvas.colors.length
  color := canvas.colors.getD (index % canvas.colors.length) ""
  emphasis := Karnaugh.emphasis (ascending i.minterms).length largest
  pattern := i.pattern
  term := i.pattern.term
  minterms := ascending i.minterms
  region
  shapes

/-- **An implicant with a region** has a loop if the region has its shapes. -/
theorem drawLoop_of_region (h : ¬canvas.Misstates i) {region : Region}
    (hregion : Region.classify canvas.layout (ascending i.minterms) = .ok region) :
    canvas.drawLoop largest index i
      = (region.shapes canvas.geometry canvas.style).map
        (canvas.loopOf largest index i region) := by
  rw [drawLoop, checkConsistent_eq_ok h, hregion]
  simp only [bind, Except.bind, Verdict.toResult, Except.mapError]
  cases region.shapes canvas.geometry canvas.style with
  | error e => rfl
  | ok shapes => rfl

/-- **What becomes of an implicant**, in the order in which it is decided. The
place and the largest size do not matter for this. -/
theorem drawLoop_cases_any (canvas : Canvas) (i : Implicant) :
    (canvas.Misstates i
        ∧ ∀ largest index, canvas.drawLoop largest index i
          = .error (.inconsistentImplicant i.pattern i.pattern.covered (ascending i.minterms)))
      ∨ (¬canvas.Misstates i
        ∧ ∃ fault, Region.classify canvas.layout (ascending i.minterms) = .error fault
          ∧ ∀ largest index, canvas.drawLoop largest index i
            = .error (.invalidGroupShape (ascending i.minterms) fault))
      ∨ ¬canvas.Misstates i
        ∧ ∃ region, Region.classify canvas.layout (ascending i.minterms) = .ok region
          ∧ ∀ largest index, canvas.drawLoop largest index i
            = (region.shapes canvas.geometry canvas.style).map
              (canvas.loopOf largest index i region) := by
  by_cases hmis : canvas.Misstates i
  · exact Or.inl ⟨hmis, fun _ _ => drawLoop_of_misstates hmis⟩
  · cases hclassify : Region.classify canvas.layout (ascending i.minterms) with
    | error fault =>
      exact Or.inr (Or.inl ⟨hmis, fault, rfl, fun _ _ => drawLoop_of_fault hmis hclassify⟩)
    | ok region =>
      exact Or.inr (Or.inr ⟨hmis, region, rfl, fun _ _ => drawLoop_of_region hmis hclassify⟩)

theorem drawLoop_of_canDraw (hgeometry : canvas.geometry.Has canvas.layout)
    (h : canvas.CanDraw i) :
    ∃ l, canvas.drawLoop largest index i = .ok l ∧ canvas.Shows index i l := by
  obtain ⟨hmis, region, hregion⟩ := h
  obtain ⟨shapes, hshapes, hpieces⟩ := Region.shapes_spec hregion hgeometry canvas.style
  refine ⟨canvas.loopOf largest index i region shapes, ?_, rfl, rfl, rfl, hregion, hpieces⟩
  rw [drawLoop_of_region hmis hregion, hshapes]
  rfl

/-- Where the geometry has the map, an implicant has its loop unless it is
skipped. -/
theorem drawLoop_cases (hgeometry : canvas.geometry.Has canvas.layout) (largest index : Nat)
    (i : Implicant) :
    (canvas.Misstates i
        ∧ canvas.drawLoop largest index i
          = .error (.inconsistentImplicant i.pattern i.pattern.covered (ascending i.minterms)))
      ∨ (¬canvas.Misstates i
        ∧ ∃ fault, Region.classify canvas.layout (ascending i.minterms) = .error fault
          ∧ canvas.drawLoop largest index i
            = .error (.invalidGroupShape (ascending i.minterms) fault))
      ∨ (canvas.CanDraw i
        ∧ ∃ l, canvas.drawLoop largest index i = .ok l ∧ canvas.Shows index i l) := by
  rcases canvas.drawLoop_cases_any i with
    ⟨hmis, herror⟩ | ⟨hmis, fault, hfault, herror⟩ | ⟨hmis, region, hregion, -⟩
  · exact Or.inl ⟨hmis, herror largest index⟩
  · exact Or.inr (Or.inl ⟨hmis, fault, hfault, herror largest index⟩)
  · have hdraw : canvas.CanDraw i := ⟨hmis, region, hregion⟩
    exact Or.inr (Or.inr ⟨hdraw, drawLoop_of_canDraw hgeometry hdraw⟩)

/-- No implicant ends the drawing. -/
theorem recoverable_of_drawLoop (hgeometry : canvas.geometry.Has canvas.layout) {e : MapError}
    (h : canvas.drawLoop largest index i = .error e) : e.recoverable = true := by
  rcases drawLoop_cases hgeometry largest index i with
    ⟨-, herror⟩ | ⟨-, fault, -, herror⟩ | ⟨-, l, hok, -⟩
  · rw [herror] at h
    cases h
    rfl
  · rw [herror] at h
    cases h
    rfl
  · rw [hok] at h
    cases h

/-! ## All implicants -/

/-- The loop of the implicant at a place, if it has one. -/
def loop? (canvas : Canvas) (largest : Nat) (place : Implicant × Nat) : Option Loop :=
  (canvas.drawLoop largest place.2 place.1).toOption

/-- What is skipped at a place, if anything is. -/
def skipped? (canvas : Canvas) (largest : Nat) (place : Implicant × Nat) : Option Skipped :=
  match canvas.drawLoop largest place.2 place.1 with
  | .ok _ => none
  | .error e => some ⟨place.2, place.1.pattern, e⟩

theorem loop?_eq_some_iff {place : Implicant × Nat} {l : Loop} :
    canvas.loop? largest place = some l ↔ canvas.drawLoop largest place.2 place.1 = .ok l := by
  unfold loop?
  cases canvas.drawLoop largest place.2 place.1 with
  | error e => simp [Except.toOption]
  | ok l' => simp [Except.toOption]

theorem skipped?_eq_some_iff {place : Implicant × Nat} {s : Skipped} :
    canvas.skipped? largest place = some s
      ↔ ∃ e, canvas.drawLoop largest place.2 place.1 = .error e
        ∧ s = ⟨place.2, place.1.pattern, e⟩ := by
  unfold skipped?
  cases canvas.drawLoop largest place.2 place.1 with
  | error e => simp [eq_comm]
  | ok l => simp

section Steps

variable {l : Loop} {e : MapError}

/-- A loop comes before those of the rest. -/
theorem drawFrom_cons_of_ok (h : canvas.drawLoop largest index i = .ok l)
    (rest : List Implicant) :
    canvas.drawFrom largest index (i :: rest)
      = (canvas.drawFrom largest (index + 1) rest).map fun d => ⟨l :: d.loops, d.skipped⟩ := by
  rw [drawFrom, h]
  cases canvas.drawFrom largest (index + 1) rest with
  | error e => rfl
  | ok d => rfl

/-- What is skipped comes before what is skipped of the rest. -/
theorem drawFrom_cons_of_recoverable (h : canvas.drawLoop largest index i = .error e)
    (he : e.recoverable = true) (rest : List Implicant) :
    canvas.drawFrom largest index (i :: rest)
      = (canvas.drawFrom largest (index + 1) rest).map
        fun d => ⟨d.loops, ⟨index, i.pattern, e⟩ :: d.skipped⟩ := by
  rw [drawFrom, h]
  simp only [he, if_true]
  cases canvas.drawFrom largest (index + 1) rest with
  | error e => rfl
  | ok d => rfl

/-- Any other error ends the drawing. -/
theorem drawFrom_cons_of_fatal (h : canvas.drawLoop largest index i = .error e)
    (he : e.recoverable = false) (rest : List Implicant) :
    canvas.drawFrom largest index (i :: rest) = .error e := by
  rw [drawFrom, h]
  simp only [he, Bool.false_eq_true, if_false]

end Steps

/-- **A drawing has the loops and what is skipped**, each at its place, if
the geometry has the map. -/
theorem drawFrom_eq (hgeometry : canvas.geometry.Has canvas.layout) (largest index : Nat)
    (is : List Implicant) :
    canvas.drawFrom largest index is
      = .ok ⟨(is.zipIdx index).filterMap (canvas.loop? largest),
          (is.zipIdx index).filterMap (canvas.skipped? largest)⟩ := by
  induction is generalizing index with
  | nil => rfl
  | cons i rest ih =>
    -- the rest is drawn in either case, as no error of an implicant is fatal
    rw [List.zipIdx_cons]
    cases h : canvas.drawLoop largest index i with
    | ok l =>
      have hloop : canvas.loop? largest (i, index) = some l := loop?_eq_some_iff.mpr h
      have hskip : canvas.skipped? largest (i, index) = none := by rw [skipped?, h]
      rw [List.filterMap_cons_some hloop, List.filterMap_cons_none hskip,
        drawFrom_cons_of_ok h, ih]
      rfl
    | error e =>
      have hloop : canvas.loop? largest (i, index) = none := by
        rw [loop?, h]
        rfl
      have hskip : canvas.skipped? largest (i, index) = some ⟨index, i.pattern, e⟩ :=
        skipped?_eq_some_iff.mpr ⟨e, h, rfl⟩
      rw [List.filterMap_cons_none hloop, List.filterMap_cons_some hskip,
        drawFrom_cons_of_recoverable h (recoverable_of_drawLoop hgeometry h), ih]
      rfl

/-- **The drawing of implicants**: the loops and what is skipped, by place. -/
def drawingOf (canvas : Canvas) (is : List Implicant) : Drawing :=
  ⟨is.zipIdx.filterMap (canvas.loop? (largestSize is)),
    is.zipIdx.filterMap (canvas.skipped? (largestSize is))⟩

theorem draw_eq (hgeometry : canvas.geometry.Has canvas.layout) (is : List Implicant) :
    canvas.draw is = .ok (canvas.drawingOf is) :=
  drawFrom_eq hgeometry (largestSize is) 0 is

/-! ## Places -/

/-- Where everything is kept, what is kept goes with it one by one. -/
theorem forall₂_filterMap {α β : Type} {R : α → β → Prop} {f : α → Option β} {xs : List α}
    (h : ∀ x ∈ xs, ∃ y, f x = some y ∧ R x y) : List.Forall₂ R xs (xs.filterMap f) := by
  induction xs with
  | nil => exact .nil
  | cons x rest ih =>
    obtain ⟨y, hy, hR⟩ := h x List.mem_cons_self
    rw [List.filterMap_cons_some hy]
    exact .cons hR (ih fun z hz => h z (List.mem_cons_of_mem x hz))

/-- Places are in order. -/
theorem pairwise_zipIdx {α : Type} (xs : List α) (index : Nat) :
    (xs.zipIdx index).Pairwise fun p q => p.2 < q.2 := by
  refine List.pairwise_map.mp ?_
  rw [List.zipIdx_map_snd]
  exact List.pairwise_lt_range'

section Places

variable {γ : Type} {f : Implicant × Nat → Option γ} {place : γ → Nat}
  (h : ∀ p c, f p = some c → place c = p.2) {is : List Implicant} {k : Nat}

include h

/-- What is kept at a place comes from the implicant there. -/
theorem mem_filterMap_place {c : γ} :
    c ∈ is.zipIdx.filterMap f ∧ place c = k ↔ ∃ i, is[k]? = some i ∧ f (i, k) = some c := by
  rw [List.mem_filterMap]
  constructor
  · rintro ⟨⟨p, hp, hc⟩, rfl⟩
    rw [h p c hc]
    exact ⟨p.1, List.mem_zipIdx_iff_getElem?.mp hp, hc⟩
  · rintro ⟨i, hi, hc⟩
    exact ⟨⟨(i, k), List.mem_zipIdx_iff_getElem?.mpr hi, hc⟩, h (i, k) c hc⟩

theorem mem_map_place :
    k ∈ (is.zipIdx.filterMap f).map place ↔ ∃ i c, is[k]? = some i ∧ f (i, k) = some c := by
  rw [List.mem_map, exists_comm]
  exact exists_congr fun c => mem_filterMap_place h

end Places

theorem index_skipped? (p : Implicant × Nat) (s : Skipped)
    (h : canvas.skipped? largest p = some s) : s.index = p.2 := by
  obtain ⟨e, -, rfl⟩ := skipped?_eq_some_iff.mp h
  rfl

/-- What is skipped at a place has the error of the implicant there. -/
theorem mem_skipped_drawingOf {is : List Implicant} {k : Nat} (hi : is[k]? = some i)
    {s : Skipped} :
    s ∈ (canvas.drawingOf is).skipped ∧ s.index = k
      ↔ ∃ e, canvas.drawLoop (largestSize is) k i = .error e ∧ s = ⟨k, i.pattern, e⟩ := by
  refine (mem_filterMap_place index_skipped?).trans ?_
  simp only [hi, Option.some.injEq, exists_eq_left', skipped?_eq_some_iff]

/-- Something is skipped at a place when the implicant there is refused. -/
theorem exists_skipped_drawingOf_iff {is : List Implicant} {k : Nat} (hi : is[k]? = some i)
    (P : MapError → Prop) :
    (∃ s ∈ (canvas.drawingOf is).skipped, s.index = k ∧ P s.error)
      ↔ ∃ e, canvas.drawLoop (largestSize is) k i = .error e ∧ P e := by
  constructor
  · rintro ⟨s, hs, hk, hP⟩
    obtain ⟨e, herror, rfl⟩ := (mem_skipped_drawingOf hi).mp ⟨hs, hk⟩
    exact ⟨e, herror, hP⟩
  · rintro ⟨e, herror, hP⟩
    obtain ⟨hs, hk⟩ := (mem_skipped_drawingOf hi).mpr ⟨e, herror, rfl⟩
    exact ⟨_, hs, hk, hP⟩

section Accounts

variable (hgeometry : canvas.geometry.Has canvas.layout) {is : List Implicant} {k : Nat}

include hgeometry

theorem shows_of_drawLoop {l : Loop} (h : canvas.drawLoop largest index i = .ok l) :
    canvas.Shows index i l := by
  rcases drawLoop_cases hgeometry largest index i with
    ⟨-, herror⟩ | ⟨-, fault, -, herror⟩ | ⟨-, l', hok, hshows⟩
  · rw [herror] at h
    cases h
  · rw [herror] at h
    cases h
  · rw [hok] at h
    cases h
    exact hshows

theorem index_loop? (p : Implicant × Nat) (l : Loop) (h : canvas.loop? largest p = some l) :
    l.index = p.2 :=
  (shows_of_drawLoop hgeometry (loop?_eq_some_iff.mp h)).index_eq

/-- The loop at a place is what was drawn for the implicant there. -/
theorem mem_loops_drawingOf (hi : is[k]? = some i) {l : Loop} :
    l ∈ (canvas.drawingOf is).loops ∧ l.index = k
      ↔ canvas.drawLoop (largestSize is) k i = .ok l := by
  refine (mem_filterMap_place (index_loop? hgeometry)).trans ?_
  simp only [hi, Option.some.injEq, exists_eq_left', loop?_eq_some_iff]

theorem drawingOf_settles (hi : is[k]? = some i) : canvas.Settles (canvas.drawingOf is) k i where
  inconsistent_iff := by
    rw [exists_skipped_drawingOf_iff hi MapError.IsInconsistentImplicant]
    rcases drawLoop_cases hgeometry (largestSize is) k i with
      ⟨hmis, herror⟩ | ⟨hmis, fault, -, herror⟩ | ⟨⟨hmis, -⟩, l, hok, -⟩
    · simp [herror, hmis, MapError.IsInconsistentImplicant]
    · simp [herror, hmis, MapError.IsInconsistentImplicant]
    · simp [hok, hmis]
  invalid_iff := by
    rw [exists_skipped_drawingOf_iff hi MapError.IsInvalidGroupShape]
    rcases drawLoop_cases hgeometry (largestSize is) k i with
      ⟨hmis, herror⟩ | ⟨hmis, fault, hfault, herror⟩ | ⟨⟨-, hregion⟩, l, hok, -⟩
    · simp [herror, hmis, MapError.IsInvalidGroupShape]
    · simp [herror, hmis, hfault, MapError.IsInvalidGroupShape]
    · simp [hok, hregion]
  drawn_iff := by
    rw [exists_congr fun l => mem_loops_drawingOf hgeometry hi]
    rcases drawLoop_cases hgeometry (largestSize is) k i with
      ⟨hmis, herror⟩ | ⟨hmis, fault, hfault, herror⟩ | ⟨hdraw, l, hok, -⟩
    · simp [herror, hmis, CanDraw]
    · simp [herror, hfault, CanDraw]
    · simp [hok, hdraw]
  shows_of_mem l hl hk :=
    shows_of_drawLoop hgeometry ((mem_loops_drawingOf hgeometry hi).mp ⟨hl, hk⟩)
  error_of_mem s hs hk := by
    obtain ⟨e, he, rfl⟩ := (mem_skipped_drawingOf hi).mp ⟨hs, hk⟩
    refine ⟨rfl, ?_⟩
    rcases drawLoop_cases hgeometry (largestSize is) k i with
      ⟨-, herror⟩ | ⟨-, fault, hfault, herror⟩ | ⟨-, l, hok, -⟩
    · exact Or.inl (Except.error.inj (he.symm.trans herror))
    · exact Or.inr ⟨fault, hfault, Except.error.inj (he.symm.trans herror)⟩
    · rw [hok] at he
      cases he

/-- Every loop shows an implicant. -/
theorem exists_shows_of_mem {l : Loop} (hl : l ∈ (canvas.drawingOf is).loops) :
    ∃ i ∈ is, canvas.Shows l.index i l := by
  have hindex := (mem_map_place (index_loop? hgeometry)).mp (List.mem_map_of_mem hl)
  obtain ⟨i, -, hi, -⟩ := hindex
  exact ⟨i, List.mem_of_getElem? hi, (drawingOf_settles hgeometry hi).shows_of_mem l hl rfl⟩

/-- **A drawing without anything skipped** has a loop for each implicant, in
their order. -/
theorem drawingOf_clean (h : ∀ i ∈ is, canvas.CanDraw i) :
    (canvas.drawingOf is).isClean = true
      ∧ List.Forall₂ (fun p l => canvas.Shows p.2 p.1 l) is.zipIdx (canvas.drawingOf is).loops := by
  have hdrawn : ∀ p ∈ is.zipIdx, ∃ l, canvas.drawLoop (largestSize is) p.2 p.1 = .ok l
      ∧ canvas.Shows p.2 p.1 l := by
    intro p hp
    exact drawLoop_of_canDraw hgeometry (h p.1 (List.fst_mem_of_mem_zipIdx hp))
  constructor
  · refine List.isEmpty_iff.mpr (List.filterMap_eq_nil_iff.mpr fun p hp => ?_)
    obtain ⟨l, hok, -⟩ := hdrawn p hp
    rw [skipped?, hok]
  · refine forall₂_filterMap fun p hp => ?_
    obtain ⟨l, hok, hl⟩ := hdrawn p hp
    exact ⟨l, loop?_eq_some_iff.mpr hok, hl⟩

end Accounts

end Canvas

end Karnaugh
