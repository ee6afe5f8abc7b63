import Karnaugh.Proofs.Labels

/-!
# Implicants are drawn independently

The implicants of a drawing share three things: the list of loops, the list of
what is skipped, and the size of the largest among them. None of them lets one
implicant change what becomes of another. Whether an implicant has a loop is
decided without its place and without the largest size, and the two only decide
how the loop looks (`Canvas.drawLoop_eq_map`). So a drawing can be put together
from the drawings of each implicant on its own, each brought to its place
(`Canvas.draw_eq_joined`).

That includes the errors. An implicant on its own ends the drawing in one way:
it is to be drawn, and the geometry has no box for a corner of its region
(`Canvas.draw_singleton_eq_error_iff`). The first such implicant ends the drawing
of all of them, and this does not depend on what was skipped before it.
-/

namespace Karnaugh

/-- **A drawing of a single outcome**: one loop, or one that is skipped. -/
def Drawing.IsSingle (d : Drawing) : Prop :=
  (∃ l, d = ⟨[l], []⟩) ∨ ∃ s, d = ⟨[], [s]⟩

/-- What is skipped, brought to a place. -/
def Skipped.placed (index : Nat) (s : Skipped) : Skipped := { s with index }

namespace Canvas

variable {canvas : Canvas} {i : Implicant} {l : Loop}

/-- **A loop brought to a place**, where the largest implicant has a number of
minterms: this decides its index, its color and its strength. -/
def placed (canvas : Canvas) (largest index : Nat) (l : Loop) : Loop :=
  { l with
    index
    colorIndex := index % canvas.colors.length
    color := canvas.colors.getD (index % canvas.colors.length) ""
    emphasis := Karnaugh.emphasis l.minterms.length largest }

/-- **Drawings joined**: their loops and what they skip, each brought to the place
of its drawing. -/
def joined (canvas : Canvas) (largest index : Nat) (alone : List Drawing) : Drawing :=
  ⟨(alone.zipIdx index).flatMap fun p => p.1.loops.map (canvas.placed largest p.2),
    (alone.zipIdx index).flatMap fun p => p.1.skipped.map (Skipped.placed p.2)⟩

/-- **An implicant lacks a cell** if it is to be drawn, and the cell is the first
corner of its region that the geometry has no box for. -/
def Lacks (canvas : Canvas) (i : Implicant) (cell : Cell) : Prop :=
  ¬canvas.Misstates i
    ∧ ∃ region, Region.classify canvas.layout (ascending i.minterms) = .ok region
      ∧ canvas.geometry.firstAbsent region.corners = some cell

/-- There are always colors. -/
theorem length_colors_pos (canvas : Canvas) : 0 < canvas.colors.length := by
  rw [colors]
  split
  · decide
  · next hsome => exact List.length_pos_iff.mpr (by simpa using hsome)

/-- There is one cell that an implicant lacks first. -/
theorem Lacks.unique {cell cell' : Cell} (h : canvas.Lacks i cell) (h' : canvas.Lacks i cell') :
    cell = cell' := by
  obtain ⟨-, region, hregion, habsent⟩ := h
  obtain ⟨-, region', hregion', habsent'⟩ := h'
  cases hregion.symm.trans hregion'
  exact Option.some.inj (habsent.symm.trans habsent')

/-! ## One implicant -/

/-- **What becomes of an implicant** on any geometry: it lacks a cell, or it has a
loop, or it is skipped. -/
theorem drawLoop_outcome (canvas : Canvas) (largest index : Nat) (i : Implicant) :
    (∃ cell, canvas.Lacks i cell
        ∧ canvas.drawLoop largest index i = .error (.missingCellGeometry cell))
      ∨ (∀ cell, ¬canvas.Lacks i cell)
        ∧ ((∃ l, canvas.drawLoop largest index i = .ok l)
          ∨ ∃ e, e.recoverable = true ∧ canvas.drawLoop largest index i = .error e) := by
  rcases canvas.drawLoop_cases_any i with
    ⟨hmis, herror⟩ | ⟨-, fault, hfault, herror⟩ | ⟨hmis, region, hregion, hmap⟩
  · exact Or.inr ⟨fun cell h => h.1 hmis, Or.inr ⟨_, rfl, herror largest index⟩⟩
  · refine Or.inr ⟨?_, Or.inr ⟨_, rfl, herror largest index⟩⟩
    rintro cell ⟨-, region, hregion, -⟩
    cases hfault.symm.trans hregion
  · rw [hmap]
    rcases Region.shapes_cases canvas.geometry canvas.style region with
      ⟨cell, habsent, herror⟩ | ⟨hall, shapes, hok⟩
    · rw [herror]
      exact Or.inl ⟨cell, ⟨hmis, region, hregion, habsent⟩, rfl⟩
    · rw [hok]
      refine Or.inr ⟨?_, Or.inl ⟨_, rfl⟩⟩
      rintro cell ⟨-, region', hregion', habsent⟩
      cases hregion.symm.trans hregion'
      cases hall.symm.trans habsent

/-- **The place and the largest size** decide how a loop looks, and nothing
else. -/
theorem drawLoop_eq_map (largest index largest' index' : Nat) (i : Implicant) :
    canvas.drawLoop largest index i
      = (canvas.drawLoop largest' index' i).map (canvas.placed largest index) := by
  rcases canvas.drawLoop_cases_any i with
    ⟨-, herror⟩ | ⟨-, fault, -, herror⟩ | ⟨-, region, -, hmap⟩
  · rw [herror, herror]
    rfl
  · rw [herror, herror]
    rfl
  · rw [hmap, hmap]
    cases region.shapes canvas.geometry canvas.style with
    | error e => rfl
    | ok shapes => rfl

/-- **The strength of a loop** is that of the number of its minterms, of which
there is at least one, and no more than the implicant has. -/
theorem emphasis_of_drawLoop {largest index : Nat} (h : canvas.drawLoop largest index i = .ok l) :
    l.emphasis = Karnaugh.emphasis l.minterms.length largest
      ∧ 1 ≤ l.minterms.length ∧ l.minterms.length ≤ i.minterms.length := by
  obtain ⟨-, region, shapes, hregion, rfl⟩ := exists_loopOf_of_drawLoop h
  refine ⟨rfl, ?_, ?_⟩
  · have hne : ascending i.minterms ≠ [] := by
      intro hnil
      rw [hnil] at hregion
      cases hregion
    exact List.length_pos_iff.mpr hne
  · exact (length_ascending i.minterms).trans_le (List.toFinset_card_le _)

/-- **Every color is one of the colors**, the place modulo their number. -/
theorem getElem?_color_of_drawLoop {largest index : Nat}
    (h : canvas.drawLoop largest index i = .ok l) :
    canvas.colors[index % canvas.colors.length]? = some l.color := by
  obtain ⟨-, region, shapes, -, rfl⟩ := exists_loopOf_of_drawLoop h
  have hlt : index % canvas.colors.length < canvas.colors.length :=
    Nat.mod_lt _ canvas.length_colors_pos
  rw [loopOf, List.getElem?_eq_getElem hlt, List.getD_eq_getElem _ _ hlt]

/-- No implicant has more minterms than the largest. -/
theorem length_le_largestSize {is : List Implicant} (hi : i ∈ is) :
    i.minterms.length ≤ largestSize is := by
  rw [largestSize, List.foldl_eq_foldr]
  exact List.le_max_of_le (List.mem_map_of_mem hi) le_rfl

/-! ## One after the other -/

section Alone

variable {e : MapError}

theorem draw_singleton_of_ok (h : canvas.drawLoop (largestSize [i]) 0 i = .ok l) :
    canvas.draw [i] = .ok ⟨[l], []⟩ := drawFrom_cons_of_ok h []

theorem draw_singleton_of_recoverable (h : canvas.drawLoop (largestSize [i]) 0 i = .error e)
    (he : e.recoverable = true) : canvas.draw [i] = .ok ⟨[], [⟨0, i.pattern, e⟩]⟩ :=
  drawFrom_cons_of_recoverable h he []

theorem draw_singleton_of_fatal (h : canvas.drawLoop (largestSize [i]) 0 i = .error e)
    (he : e.recoverable = false) : canvas.draw [i] = .error e := drawFrom_cons_of_fatal h he []

/-- **An implicant on its own** ends the drawing if it lacks a cell. -/
theorem draw_singleton_eq_error_iff :
    canvas.draw [i] = .error e ↔ ∃ cell, canvas.Lacks i cell ∧ e = .missingCellGeometry cell := by
  rcases canvas.drawLoop_outcome (largestSize [i]) 0 i with
    ⟨cell, hlacks, herror⟩ | ⟨hnot, ⟨l, hok⟩ | ⟨e', he', herror⟩⟩
  · rw [draw_singleton_of_fatal herror rfl]
    constructor
    · rintro ⟨⟩
      exact ⟨cell, hlacks, rfl⟩
    · rintro ⟨cell', hlacks', rfl⟩
      rw [hlacks.unique hlacks']
  · rw [draw_singleton_of_ok hok]
    exact iff_of_false nofun fun ⟨cell, hlacks, _⟩ => hnot cell hlacks
  · rw [draw_singleton_of_recoverable herror he']
    exact iff_of_false nofun fun ⟨cell, hlacks, _⟩ => hnot cell hlacks

/-- Otherwise it has one outcome. -/
theorem isSingle_of_draw_singleton {a : Drawing} (h : canvas.draw [i] = .ok a) : a.IsSingle := by
  rcases canvas.drawLoop_outcome (largestSize [i]) 0 i with
    ⟨cell, -, herror⟩ | ⟨-, ⟨l, hok⟩ | ⟨e, he, herror⟩⟩
  · cases (draw_singleton_of_fatal herror rfl).symm.trans h
  · cases (draw_singleton_of_ok hok).symm.trans h
    exact Or.inl ⟨l, rfl⟩
  · cases (draw_singleton_of_recoverable herror he).symm.trans h
    exact Or.inr ⟨_, rfl⟩

theorem exists_draw_singleton_iff :
    (∃ a, canvas.draw [i] = .ok a) ↔ ∀ cell, ¬canvas.Lacks i cell := by
  rw [← not_exists]
  cases h : canvas.draw [i] with
  | error e =>
    obtain ⟨cell, hlacks, -⟩ := draw_singleton_eq_error_iff.mp h
    exact iff_of_false (fun ⟨_, ha⟩ => nomatch ha) (not_not.mpr ⟨cell, hlacks⟩)
  | ok a =>
    refine iff_of_true ⟨a, rfl⟩ ?_
    rintro ⟨cell, hlacks⟩
    cases h.symm.trans (draw_singleton_eq_error_iff.mpr ⟨cell, hlacks, rfl⟩)

end Alone

/-- **One step of a drawing** is the drawing of an implicant on its own, brought to
its place, before the rest. -/
theorem drawFrom_cons (largest index : Nat) (i : Implicant) (rest : List Implicant) :
    canvas.drawFrom largest index (i :: rest) = do
      let a ← canvas.draw [i]
      let d ← canvas.drawFrom largest (index + 1) rest
      return ⟨a.loops.map (canvas.placed largest index) ++ d.loops,
        a.skipped.map (Skipped.placed index) ++ d.skipped⟩ := by
  have hplace := canvas.drawLoop_eq_map largest index (largestSize [i]) 0 i
  cases h : canvas.drawLoop (largestSize [i]) 0 i with
  | ok l =>
    rw [h] at hplace
    rw [drawFrom_cons_of_ok hplace, draw_singleton_of_ok h]
    rfl
  | error e =>
    rw [h] at hplace
    cases he : e.recoverable with
    | true =>
      rw [drawFrom_cons_of_recoverable hplace he, draw_singleton_of_recoverable h he]
      rfl
    | false =>
      rw [drawFrom_cons_of_fatal hplace he, draw_singleton_of_fatal h he]
      rfl

/-- **A run of steps** joins the drawings of the implicants, each on its own. -/
theorem drawFrom_eq_joined (largest index : Nat) (is : List Implicant) :
    canvas.drawFrom largest index is
      = (is.mapM fun i => canvas.draw [i]).map (canvas.joined largest index) := by
  induction is generalizing index with
  | nil => rfl
  | cons i rest ih =>
    rw [drawFrom_cons, List.mapM_cons, ih]
    cases canvas.draw [i] with
    | error e => rfl
    | ok a =>
      cases rest.mapM fun i => canvas.draw [i] with
      | error e => rfl
      | ok alone => rfl

theorem draw_eq_joined (canvas : Canvas) (is : List Implicant) :
    canvas.draw is
      = (is.mapM fun i => canvas.draw [i]).map (canvas.joined (largestSize is) 0) :=
  drawFrom_eq_joined (largestSize is) 0 is

/-- A drawing ends with an error if that of an implicant on its own does. -/
theorem draw_eq_error_iff {is : List Implicant} {e : MapError} :
    canvas.draw is = .error e ↔ (is.mapM fun i => canvas.draw [i]) = .error e := by
  rw [draw_eq_joined]
  cases is.mapM fun i => canvas.draw [i] with
  | error e' => exact Iff.of_eq (by simp only [Except.map, Except.error.injEq])
  | ok alone => exact iff_of_false nofun nofun

/-! ## All implicants -/

/-- Where each place has one thing or none, they are in the order of the places. -/
theorem pairwise_flatMap_place {α γ : Type} {place : γ → Nat} {f : α × Nat → List γ}
    (hplace : ∀ p, ∀ c ∈ f p, place c = p.2) {xs : List α}
    (hone : ∀ p ∈ xs.zipIdx, f p = [] ∨ ∃ c, f p = [c]) :
    ((xs.zipIdx.flatMap f).map place).Pairwise (· < ·) := by
  refine List.pairwise_map.mpr (List.pairwise_flatMap.mpr ⟨fun p hp => ?_, ?_⟩)
  · rcases hone p hp with hnone | ⟨c, hsome⟩
    · rw [hnone]
      exact .nil
    · rw [hsome]
      exact List.pairwise_singleton _ c
  · refine (pairwise_zipIdx xs 0).imp fun {p q} hpq c hc d hd => ?_
    rwa [hplace p c hc, hplace q d hd]

/-- **A drawing is independent** if it is put together from the drawings of the
implicants, each on its own. -/
structure Independent (canvas : Canvas) (is : List Implicant) (d : Drawing)
    (alone : List Drawing) : Prop where
  /-- Each implicant on its own has one outcome. -/
  alone_spec : List.Forall₂ (fun i a => canvas.draw [i] = .ok a ∧ a.IsSingle) is alone
  /-- The drawing has these outcomes, each brought to its place. -/
  eq_joined : d = canvas.joined (largestSize is) 0 alone
  /-- Loops are in the order of the implicants. -/
  loops_ascending : (d.loops.map Loop.index).Pairwise (· < ·)
  /-- So is what is skipped. -/
  skipped_ascending : (d.skipped.map Skipped.index).Pairwise (· < ·)

theorem exists_independent {is : List Implicant} {d : Drawing} (h : canvas.draw is = .ok d) :
    ∃ alone, canvas.Independent is d alone := by
  rw [draw_eq_joined] at h
  obtain ⟨alone, halone, rfl⟩ := exists_of_map_eq_ok h
  have hall := mapM_eq_ok_iff.mp halone
  have hsingle : ∀ p ∈ alone.zipIdx, p.1.IsSingle := by
    intro p hp
    obtain ⟨k, hk, heq⟩ := List.mem_iff_getElem.mp (List.fst_mem_of_mem_zipIdx hp)
    exact heq ▸ isSingle_of_draw_singleton (hall.get (hall.length_eq ▸ hk) hk)
  refine ⟨alone, hall.imp fun i a ha => ⟨ha, isSingle_of_draw_singleton ha⟩, rfl, ?_, ?_⟩
  · refine pairwise_flatMap_place (fun p l hl => ?_) fun p hp => ?_
    · obtain ⟨l', -, rfl⟩ := List.mem_map.mp hl
      rfl
    · rcases hsingle p hp with ⟨l, hloop⟩ | ⟨s, hskip⟩
      · exact Or.inr ⟨_, by rw [hloop]; rfl⟩
      · exact Or.inl (by rw [hskip]; rfl)
  · refine pairwise_flatMap_place (fun p s hs => ?_) fun p hp => ?_
    · obtain ⟨s', -, rfl⟩ := List.mem_map.mp hs
      rfl
    · rcases hsingle p hp with ⟨l, hloop⟩ | ⟨s, hskip⟩
      · exact Or.inl (by rw [hloop]; rfl)
      · exact Or.inr ⟨_, by rw [hskip]; rfl⟩

/-- **What ends a drawing** is the first implicant that lacks a cell. -/
theorem draw_eq_error_iff_first {is : List Implicant} {e : MapError} :
    canvas.draw is = .error e
      ↔ ∃ before i after cell, is = before ++ i :: after
        ∧ (∀ j ∈ before, ∀ other, ¬canvas.Lacks j other)
        ∧ canvas.Lacks i cell ∧ e = .missingCellGeometry cell := by
  rw [draw_eq_error_iff, mapM_eq_error_iff]
  refine exists_congr fun before => exists_congr fun i => exists_congr fun after => ?_
  rw [draw_singleton_eq_error_iff, ← exists_and_left, ← exists_and_left]
  refine exists_congr fun cell => and_congr_right fun _ => and_congr_left fun _ => ?_
  exact forall₂_congr fun j _ => exists_draw_singleton_iff

theorem exists_draw_eq_error_iff {is : List Implicant} :
    (∃ e, canvas.draw is = .error e) ↔ ∃ i ∈ is, ∃ cell, canvas.Lacks i cell := by
  rw [exists_congr fun e => draw_eq_error_iff, exists_mapM_eq_error_iff]
  refine exists_congr fun i => and_congr_right fun _ => ?_
  simp only [draw_singleton_eq_error_iff]
  exact ⟨fun ⟨_, cell, hlacks, _⟩ => ⟨cell, hlacks⟩, fun ⟨cell, hlacks⟩ => ⟨_, cell, hlacks, rfl⟩⟩

/-- **Implicants are drawn independently.** A drawing ends with an error exactly
if some implicant that is to be drawn lacks a cell, and the error is that of the
first. Otherwise the drawing is put together from those of the implicants, each
on its own: only the place, the color and the strength are those of the drawing
as a whole. The color is one of the colors, in turn, and the strength is always
that of a positive number of minterms, which is no more than the largest. -/
theorem draw_independent (canvas : Canvas) (is : List Implicant) :
    ((∃ e, canvas.draw is = .error e) ↔ ∃ i ∈ is, ∃ cell, canvas.Lacks i cell)
      ∧ (∀ e, canvas.draw is = .error e
        ↔ ∃ before i after cell, is = before ++ i :: after
          ∧ (∀ j ∈ before, ∀ other, ¬canvas.Lacks j other)
          ∧ canvas.Lacks i cell ∧ e = .missingCellGeometry cell)
      ∧ (∀ d, canvas.draw is = .ok d → ∃ alone, canvas.Independent is d alone)
      ∧ ∀ i ∈ is, ∀ k l, canvas.drawLoop (largestSize is) k i = .ok l →
        canvas.colors[k % canvas.colors.length]? = some l.color
          ∧ l.emphasis = Karnaugh.emphasis l.minterms.length (largestSize is)
          ∧ 1 ≤ l.minterms.length ∧ l.minterms.length ≤ largestSize is := by
  refine ⟨exists_draw_eq_error_iff, fun e => draw_eq_error_iff_first,
    fun d => exists_independent, fun i hi k l h => ?_⟩
  obtain ⟨hemphasis, hpos, hle⟩ := emphasis_of_drawLoop h
  exact ⟨getElem?_color_of_drawLoop h, hemphasis, hpos, hle.trans (length_le_largestSize hi)⟩

/-- The small map without a box for its last cell. -/
def tornMap : Canvas :=
  { smallMap with geometry := fun cell => if cell = ⟨1, 1⟩ then none else smallMap.geometry cell }

/-- The left column of the small map. -/
def leftCol : Implicant := .ofPattern ⟨[none, some false], by decide, by decide⟩

/-- Its right column, down to the last cell. -/
def rightCol : Implicant := .ofPattern ⟨[none, some true], by decide, by decide⟩

/-- The pattern of the right column, with the last cell alone. -/
def strayCorner : Implicant := ⟨rightCol.pattern, [3]⟩

/-- The theorem on the torn map: an implicant that needs the last cell ends the
drawing, after one that does not; an implicant that misstates its minterms does
not, though the last cell is among them. -/
theorem draw_independent_tornMap :
    tornMap.draw [leftCol, rightCol] = .error (.missingCellGeometry ⟨1, 1⟩)
      ∧ ∃ d alone, tornMap.draw [strayCorner, leftCol] = .ok d
        ∧ tornMap.Independent [strayCorner, leftCol] d alone := by
  have hleft : ∀ cell, ¬tornMap.Lacks leftCol cell := by
    rintro cell ⟨-, region, hregion, habsent⟩
    cases hregion
    cases habsent
  have hright : tornMap.Lacks rightCol ⟨1, 1⟩ :=
    ⟨fun hmis => hmis.2 rfl, .rectangle (.run 0 1) (.run 1 1), by decide, rfl⟩
  have hstray : ∀ cell, ¬tornMap.Lacks strayCorner cell := fun cell h => h.1 ⟨rfl, by decide⟩
  constructor
  · obtain ⟨-, hfirst, -⟩ := draw_independent tornMap [leftCol, rightCol]
    exact (hfirst _).mpr ⟨[leftCol], rightCol, [], ⟨1, 1⟩, rfl,
      List.forall_mem_singleton.mpr hleft, hright, rfl⟩
  · obtain ⟨herror, -, hjoined, -⟩ := draw_independent tornMap [strayCorner, leftCol]
    cases h : tornMap.draw [strayCorner, leftCol] with
    | error e =>
      obtain ⟨i, hi, cell, hlacks⟩ := herror.mp ⟨e, h⟩
      rcases List.mem_pair.mp hi with rfl | rfl
      · exact absurd hlacks (hstray cell)
      · exact absurd hlacks (hleft cell)
    | ok d =>
      obtain ⟨alone, hd⟩ := hjoined d h
      exact ⟨d, alone, rfl, hd⟩

end Canvas

end Karnaugh
