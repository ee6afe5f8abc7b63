import Karnaugh.Problem
import Karnaugh.Proofs.Drawings
import Karnaugh.Proofs.Grids
import Karnaugh.Proofs.SameSets

/-!
# Sheets of checked problems

A problem that has passed the check is always laid out. Whatever a solver
answers, its implicants are drawn or reported one by one, and none is lost
(`Problem.solve_settles`): the cells of the map all have a place, so that no
error ends the drawing.

The minimizer answers every such problem, with terms of which each fills its
region. So nothing is skipped, and as the terms have all minterms and nothing
that must not be covered, the loops go around every one of the map and around
no zero (`Problem.solve_encloses`). From five variables on there is no map to
draw on.
-/

namespace Karnaugh

/-! ## Checked problems -/

/-- The geometry of any settings has the map. -/
theorem Settings.canvasFor_has (s : Settings) (layout : Layout) :
    (s.canvasFor layout).geometry.Has (s.canvasFor layout).layout :=
  UniformGeometry.has rfl rfl

theorem Layout.ofNumVars_eq_ok {layout : Layout} {n : Nat} (h : layout.numVars = n) :
    ofNumVars n = .ok layout := by
  subst h
  exact dif_pos ⟨layout.two_le, layout.le_four⟩

theorem Layout.ofNumVars_eq_error {n : Nat} (h : maxGridVariables < n) :
    ofNumVars n = .error (.unsupportedVariableCount n minGridVariables maxGridVariables) :=
  dif_neg fun hn => absurd hn.2 h.not_ge

/-- A valid request of up to four variables has a map. -/
theorem Request.Valid.exists_layout {r : Request} (h : r.Valid)
    (hle : r.numVars ≤ maxGridVariables) : ∃ layout : Layout, r.numVars = layout.numVars :=
  ⟨⟨r.numVars, h.two_le, hle⟩, rfl⟩

namespace Problem

variable {settings : Settings} {spec : Spec} {p : Problem} {layout : Layout} {solver : Solver}
  {a : Answer}

/-- **The check accepts the valid problems**, with their lists brought into
order. -/
theorem of_eq_ok_iff :
    Problem.of settings spec = .ok p
      ↔ p.spec.request.Valid ∧ p.spec = spec.normalize ∧ p.settings = settings := by
  unfold Problem.of
  dsimp only
  obtain ⟨settings', spec'⟩ := p
  cases hcheck : spec.normalize.request.check with
  | error e =>
    refine ⟨nofun, ?_⟩
    rintro ⟨hvalid, rfl, -⟩
    rw [Request.check_eq_ok_iff.mpr hvalid] at hcheck
    cases hcheck
  | ok u =>
    refine ⟨fun h => ?_, ?_⟩
    · cases h
      exact ⟨Request.check_eq_ok_iff.mp hcheck, rfl, rfl⟩
    · rintro ⟨-, rfl, rfl⟩
      rfl

/-- A valid problem comes out of the check with its lists in order. -/
theorem of_eq_ok (settings : Settings) (h : spec.request.Valid) :
    Problem.of settings spec = .ok ⟨settings, spec.normalize⟩ :=
  of_eq_ok_iff.mpr ⟨Spec.valid_normalize.mpr h, rfl, rfl⟩

theorem exists_of_eq_ok_iff : (∃ p, Problem.of settings spec = .ok p) ↔ spec.request.Valid := by
  refine ⟨fun ⟨p, hp⟩ => ?_, fun h => ⟨_, of_eq_ok settings h⟩⟩
  obtain ⟨hvalid, hspec, -⟩ := of_eq_ok_iff.mp hp
  rw [hspec] at hvalid
  exact Spec.valid_normalize.mp hvalid

theorem numVars_of_eq_ok (h : Problem.of settings spec = .ok p) :
    p.spec.numVars = spec.numVars := by
  rw [(of_eq_ok_iff.mp h).2.1]
  rfl

theorem draw_eq (h : p.spec.numVars = layout.numVars) (is : List Implicant) :
    p.draw is = .ok (some ((p.settings.canvasFor layout).drawingOf is)) := by
  have hdrawable : p.isDrawable = true := decide_eq_true (h.trans_le layout.le_four)
  rw [draw, if_pos hdrawable, Layout.ofNumVars_eq_ok h.symm]
  simp only [bind, Except.bind, Canvas.draw_eq (p.settings.canvasFor_has layout)]
  rfl

theorem draw_eq_none (h : maxGridVariables < p.spec.numVars) (is : List Implicant) :
    p.draw is = .ok none := by
  have hdrawable : ¬p.isDrawable = true := fun hd => absurd (of_decide_eq_true hd) h.not_ge
  rw [draw, if_neg hdrawable]
  rfl

/-- **The sheet of a problem** is there once it is answered and drawn. -/
theorem solve_eq_ok {drawing : Option Drawing} (ha : solver p.spec.request = .ok a)
    (hd : p.draw a.implicants = .ok drawing) :
    p.solve solver = .ok (Sheet.of p.spec a p.grid drawing p.settings.loops.palette) := by
  rw [solve, ha]
  simp only [bind, Except.bind, hd]
  rfl

/-- The grid of a problem is made of its lists. -/
theorem grid_eq {g : Grid} (hn : layout.numVars = p.spec.numVars)
    (hg : Grid.ofSets layout p.spec.minterms p.spec.dontCares = .ok g) : p.grid = some g := by
  rw [grid, Layout.ofNumVars_eq_ok hn]
  show (Grid.ofSets layout p.spec.minterms p.spec.dontCares).toOption = some g
  rw [hg]
  rfl

/-- **The grid of a checked problem** stands for its lists. -/
theorem grid_spec (h : p.spec.request.Valid) (hlayout : p.spec.numVars = layout.numVars) :
    ∃ g, p.grid = some g ∧ g.layout = layout
      ∧ g.StandsFor p.spec.minterms p.spec.dontCares := by
  have hlt : ∀ m ∈ p.spec.request.allowed, m < layout.cellCount := by
    intro m hm
    rw [layout.cellCount_eq, ← hlayout]
    exact h.lt_inputCount m hm
  obtain ⟨g, hok, hg, hstands⟩ := Grid.ofSets_spec
    (fun m hm => hlt m (Request.mem_allowed.mpr (Or.inl hm)))
    (fun m hm => hlt m (Request.mem_allowed.mpr (Or.inr hm))) h.disjoint
  exact ⟨g, grid_eq hlayout.symm hok, hg, hstands⟩

theorem grid_eq_none (h : maxGridVariables < p.spec.numVars) : p.grid = none := by
  rw [grid, Layout.ofNumVars_eq_error h]
  rfl

/-! ## Any solver -/

/-- The implicants of an answer can all be drawn. -/
theorem canDraw_of_minimize {exactLimit : Nat} (canvas : Canvas) (h : p.spec.request.Valid)
    (ha : minimize exactLimit p.spec.request = .ok a)
    (hlayout : p.spec.numVars = canvas.layout.numVars) :
    ∀ i ∈ a.implicants, canvas.CanDraw i := by
  intro i hi
  obtain ⟨-, hf, hprime⟩ := (minimize_terms h ha).1 i hi
  exact Canvas.canDraw_of_faithful hf (hprime.1.1.trans hlayout)

end Problem

/-- **A drawing goes around the ones of a grid**, if every cell that is on is
in a piece of some loop, and none that is off is in any. -/
structure Drawing.Encloses (d : Drawing) (g : Grid) : Prop where
  /-- What is on is inside a loop. -/
  on : ∀ cell, g.get? cell = .ok .on →
    ∃ l ∈ d.loops, ∃ piece ∈ l.region.pieces, piece.Contains cell
  /-- What is off is inside none. -/
  off : ∀ cell, g.get? cell = .ok .off →
    ∀ l ∈ d.loops, ∀ piece ∈ l.region.pieces, ¬piece.Contains cell

/-- **Loops go around what their implicants have**: the ones, if together they
have all of them and nothing that is off. -/
theorem Canvas.drawingOf_encloses {canvas : Canvas} {is : List Implicant} {g : Grid}
    (hgeometry : canvas.geometry.Has canvas.layout) (hg : g.layout = canvas.layout)
    (hdraw : ∀ i ∈ is, canvas.CanDraw i)
    (hon : ∀ m < g.layout.cellCount, g.stateOf m = .on → ∃ i ∈ is, m ∈ i.minterms)
    (hoff : ∀ i ∈ is, ∀ m ∈ i.minterms, g.stateOf m ≠ .off) :
    (canvas.drawingOf is).Encloses g where
  on cell hcell := by
    obtain ⟨hcontains, hstate⟩ := Grid.get?_eq_ok_iff.mp hcell
    rw [← Grid.stateOf_mintermAt hcontains] at hstate
    obtain ⟨i, hi, hm⟩ := hon _ (Layout.mintermAt_lt hcontains) hstate
    obtain ⟨k, hk⟩ := List.getElem?_of_mem hi
    have hsettles := drawingOf_settles hgeometry hk
    obtain ⟨l, hl, hindex⟩ := hsettles.drawn_iff.mpr (hdraw i hi)
    refine ⟨l, hl, (hsettles.shows_of_mem l hl hindex).exists_piece_contains_iff.mpr ⟨_, hm, ?_⟩⟩
    rw [← hg, Layout.cellOf_mintermAt hcontains]
  off cell hcell l hl piece hpiece hin := by
    obtain ⟨hcontains, hstate⟩ := Grid.get?_eq_ok_iff.mp hcell
    obtain ⟨i, hi, hshows⟩ := exists_shows_of_mem hgeometry hl
    obtain ⟨m, hm, rfl⟩ := hshows.exists_piece_contains_iff.mp ⟨piece, hpiece, hin⟩
    rw [← hg] at hstate
    exact hoff i hi m hm hstate

namespace Problem

/-- **What is drawn goes around every one and no zero.** A checked problem is
answered and laid out, whatever the settings. Up to four variables the grid has
the lists of the problem, nothing is skipped, and there is one loop for each
implicant, in their order, with a shape for each piece of its region. Every
cell that is on is in a piece, and no cell that is off is. From five variables
on there is neither grid nor drawing. -/
theorem solve_encloses (settings : Settings) (spec : Spec) (p : Problem)
    (h : Problem.of settings spec = .ok p) :
    ∃ a v, settings.minimizer p.spec.request = .ok a ∧ p.solve settings.minimizer = .ok v
      ∧ (spec.numVars ≤ maxGridVariables →
        ∃ g d, v.grid = some g ∧ v.drawing = some d ∧ g.layout.numVars = spec.numVars
          ∧ g.extract = (ascending spec.minterms, ascending spec.dontCares)
          ∧ d.isClean = true
          ∧ List.Forall₂ (fun i l => (settings.canvasFor g.layout).Shows i.2 i.1 l)
            a.implicants.zipIdx d.loops
          ∧ d.Encloses g)
      ∧ (maxGridVariables < spec.numVars → v.grid = none ∧ v.drawing = none) := by
  obtain ⟨hvalid, hspec, rfl⟩ := of_eq_ok_iff.mp h
  have hn := numVars_of_eq_ok h
  obtain ⟨a, ha, -⟩ := minimize_spec hvalid p.settings.solver.exactCoverLimit
  rcases Nat.lt_or_ge maxGridVariables spec.numVars with hlt | hle
  · have hnone : maxGridVariables < p.spec.numVars := hn ▸ hlt
    exact ⟨a, _, ha, solve_eq_ok ha (draw_eq_none hnone a.implicants),
      fun hle => absurd hle hlt.not_ge, fun _ => ⟨grid_eq_none hnone, rfl⟩⟩
  · obtain ⟨layout, hlayout⟩ := hvalid.exists_layout (hn.trans_le hle)
    obtain ⟨g, hgrid, rfl, hstands⟩ := grid_spec hvalid hlayout
    have hgeometry := p.settings.canvasFor_has g.layout
    have hdraw := canDraw_of_minimize (p.settings.canvasFor g.layout) hvalid ha hlayout
    obtain ⟨hclean, hloops⟩ := Canvas.drawingOf_clean hgeometry hdraw
    obtain ⟨hterms, hall⟩ := minimize_terms hvalid ha
    refine ⟨a, _, ha, solve_eq_ok ha (draw_eq hlayout a.implicants),
      fun _ => ⟨g, _, hgrid, rfl, hlayout.symm.trans hn, ?_, hclean, hloops, ?_⟩,
      fun hlt => absurd hle hlt.not_ge⟩
    · rw [hstands.extract_eq, hspec]
      exact congrArg₂ Prod.mk (ascending_eq_self (pairwise_ascending _))
        (ascending_eq_self (pairwise_ascending _))
    · -- what is on is a minterm, and what a term has is on or open
      refine Canvas.drawingOf_encloses hgeometry rfl hdraw (fun m hm hon => ?_) fun i hi m hm => ?_
      · exact hall m ((hstands.mem_minterms_iff m).mpr ⟨hm, hon⟩)
      · obtain ⟨-, hf, hprime⟩ := hterms i hi
        rw [hf] at hm
        rcases Request.mem_allowed.mp (hprime.1.2 hm) with hmin | hopen
        · rw [((hstands.mem_minterms_iff m).mp hmin).2]
          exact nofun
        · rw [((hstands.mem_dontCares_iff m).mp hopen).2]
          exact nofun

/-- The theorem at a problem with don't-cares and a repetition, and with no
colors to draw with. -/
theorem solve_encloses_no_palette :
    ∃ p a v g d,
      Problem.of { Settings.standard with loops := ⟨6, 12, 4, []⟩ }
          (Spec.of 4 [12, 4, 8, 10, 4, 11, 15] [14, 9]) = .ok p
        ∧ p.settings.minimizer p.spec.request = .ok a
        ∧ p.solve p.settings.minimizer = .ok v ∧ v.grid = some g ∧ v.drawing = some d
        ∧ g.extract = ([4, 8, 10, 11, 12, 15], [9, 14])
        ∧ d.isClean = true ∧ a.implicants.length = d.loops.length
        ∧ d.Encloses g := by
  have h : Problem.of { Settings.standard with loops := ⟨6, 12, 4, []⟩ }
        (Spec.of 4 [12, 4, 8, 10, 4, 11, 15] [14, 9])
      = .ok ⟨{ Settings.standard with loops := ⟨6, 12, 4, []⟩ },
          (Spec.of 4 [12, 4, 8, 10, 4, 11, 15] [14, 9]).normalize⟩ := rfl
  obtain ⟨a, v, ha, hok, hdrawable, -⟩ := solve_encloses _ _ _ h
  obtain ⟨g, d, hg, hd, -, hextract, hclean, hloops, hencloses⟩ := hdrawable (by decide)
  exact ⟨_, a, v, g, d, h, ha, hok, hg, hd, hextract, hclean,
    List.length_zipIdx.symm.trans hloops.length_eq, hencloses⟩

end Problem

end Karnaugh
