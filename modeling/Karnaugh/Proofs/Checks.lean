import Karnaugh.Proofs.Sheets

/-!
# Three checks of the same lists

Two lists of minterms are checked in three ways. A request looks for what is out of
range and then for what is in both lists. A problem brings the lists into order first
and then does the same. A grid looks up the cell of one minterm after the other, and
finds what is in both lists by the state of that cell.

All three let the same lists pass (`Problem.checks_agree`), although they may name
different offenders. Lists that pass have one form in common, too: what is read off
their grid is the spec of their problem. As a grid is told by what is read off it
(`Grid.ofSets_extract`), grids and problems without expressions can be exchanged for
one another.
-/

namespace Karnaugh

variable {layout : Layout} {ms ds : List Nat}

/-- On a map, a request is valid if its lists have a grid. -/
theorem Request.valid_iff_exists_ofSets :
    Request.Valid ⟨layout.numVars, ms, ds⟩ ↔ ∃ g, Grid.ofSets layout ms ds = .ok g := by
  rw [Grid.exists_ofSets_eq_ok_iff, layout.cellCount_eq]
  constructor
  · intro h
    exact ⟨fun m hm => h.lt_inputCount m (Request.mem_allowed.mpr (.inl hm)),
      fun m hm => h.lt_inputCount m (Request.mem_allowed.mpr (.inr hm)), h.disjoint⟩
  · rintro ⟨hms, hds, hdisjoint⟩
    refine ⟨⟨layout.two_le, layout.le_four.trans (by decide), fun m hm => ?_⟩, hdisjoint⟩
    exact (Request.mem_allowed.mp hm).elim (hms m) (hds m)

/-- What has no result has an error. -/
theorem exists_eq_error {α ε : Type} {x : Except ε α} (h : ¬∃ a, x = .ok a) :
    ∃ e, x = .error e := by
  cases x with
  | error e => exact ⟨e, rfl⟩
  | ok a => exact absurd ⟨a, rfl⟩ h

namespace Problem

/-- **The three checks agree.** On the map of a layout, any two lists pass the checks of
requests, problems and grids, or they fail all three. If they pass, the problem has them
in order, and so they are read off the grid; the grid is that of the problem, and the
problem that of the grid, its expression apart. And every grid is that of the sets that
are read off it. -/
theorem checks_agree (settings : Settings) (layout : Layout) (ms ds : List Nat)
    (expression : Option String) :
    ((∃ p g, Request.check ⟨layout.numVars, ms, ds⟩ = .ok ()
          ∧ Problem.of settings ⟨layout.numVars, ms, ds, expression⟩ = .ok p
          ∧ Grid.ofSets layout ms ds = .ok g
          ∧ p.spec = ⟨layout.numVars, ascending ms, ascending ds, expression⟩
          ∧ g.extract = (ascending ms, ascending ds)
          ∧ p.grid = some g
          ∧ Problem.ofGrid settings g = .ok ⟨settings, { p.spec with expression := none }⟩)
        ∨ ∃ e e' e'', Request.check ⟨layout.numVars, ms, ds⟩ = .error e
          ∧ Problem.of settings ⟨layout.numVars, ms, ds, expression⟩ = .error e'
          ∧ Grid.ofSets layout ms ds = .error e'')
      ∧ ∀ g : Grid, Grid.ofSets g.layout g.extract.1 g.extract.2 = .ok g := by
  refine ⟨?_, Grid.ofSets_extract⟩
  by_cases h : Request.Valid ⟨layout.numVars, ms, ds⟩
  · left
    obtain ⟨hms, hds, hdisjoint⟩ :=
      Grid.exists_ofSets_eq_ok_iff.mp (Request.valid_iff_exists_ofSets.mp h)
    obtain ⟨g, hg, rfl, hstands⟩ := Grid.ofSets_spec hms hds hdisjoint
    have hextract := hstands.extract_eq
    have hordered : Grid.ofSets g.layout (ascending ms) (ascending ds) = .ok g := by
      have hback := Grid.ofSets_extract g
      rwa [hextract] at hback
    refine ⟨_, g, Request.check_eq_ok_iff.mpr h, of_eq_ok settings h, hg, rfl, hextract,
      grid_eq rfl hordered, ?_⟩
    -- the lists of the grid are those of the problem in order, and in order again
    have hvalid : (Spec.of g.layout.numVars ms ds).normalize.request.Valid :=
      Spec.valid_normalize.mpr h
    have hback := of_eq_ok settings hvalid
    rw [Spec.normalize_normalize] at hback
    rw [ofGrid, hextract]
    exact hback
  · right
    obtain ⟨e, he⟩ := exists_eq_error fun ⟨_, hcheck⟩ => h (Request.check_eq_ok_iff.mp hcheck)
    have hproblem : ¬∃ p, Problem.of settings ⟨layout.numVars, ms, ds, expression⟩ = .ok p :=
      fun hp => h (exists_of_eq_ok_iff.mp hp)
    obtain ⟨e', he'⟩ := exists_eq_error hproblem
    obtain ⟨e'', he''⟩ := exists_eq_error fun hg => h (Request.valid_iff_exists_ofSets.mpr hg)
    exact ⟨e, e', e'', he, he', he''⟩

example : Request.check ⟨2, [5], [7]⟩ = .error (.mintermOutOfRange 5 2)
    ∧ Grid.ofSets ⟨2, by decide, by decide⟩ [5] [7] = .error (.mintermOutOfRange 7 2) :=
  ⟨rfl, rfl⟩

end Problem

end Karnaugh
