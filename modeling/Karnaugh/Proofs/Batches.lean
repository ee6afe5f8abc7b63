import Karnaugh.Batch
import Karnaugh.Proofs.Sheets

/-!
# Batches agree with sheets

A problem can be solved in two ways: for its sheet, with everything laid out, or as
one of a batch, for its expression only. The first way does more and might fail at
it. This module shows that it does not: what passes the check can always be laid
out, whatever the solver answers (`Problem.exists_draw_eq_ok`), so that the outcome
for a problem is told by its sheet (`Outcome.of_eq_ofSheet`).

A batch therefore comes to the sheets of its problems (`solveBatch_eq`), and so does its
export (`outcomesCsv_solveBatch`).
-/

namespace Karnaugh

/-! ## Sheets -/

/-- **What passes the check can be laid out**, whatever the implicants. -/
theorem Problem.exists_draw_eq_ok {p : Problem} (h : p.spec.request.Valid) (is : List Implicant) :
    ∃ drawing, p.draw is = .ok drawing := by
  rcases Nat.lt_or_ge maxGridVariables p.spec.numVars with hlt | hle
  · exact ⟨none, draw_eq_none hlt is⟩
  · obtain ⟨layout, hlayout⟩ := h.exists_layout hle
    exact ⟨_, draw_eq hlayout is⟩

/-- **The expression of an answer** reads back as all minterms, and nothing that
must not be covered. -/
theorem parse_expression_of_minimize {r : Request} (h : r.Valid) {exactLimit : Nat} {a : Answer}
    (ha : minimize exactLimit r = .ok a) :
    ∃ ms, Expression.parse a.expression r.numVars = .ok ms ∧ (∀ m ∈ r.minterms, m ∈ ms)
      ∧ ∀ m ∈ ms, m ∈ r.minterms ∨ m ∈ r.dontCares := by
  obtain ⟨a', hok, -, -, hexpression, -⟩ := minimize_spec h exactLimit
  obtain rfl := Except.ok.inj (ha.symm.trans hok)
  obtain ⟨hterms, hcovered⟩ := minimize_terms h ha
  refine ⟨ascending (a.implicants.flatMap Implicant.minterms), ?_, fun m hm => ?_, fun m hm => ?_⟩
  · rw [hexpression]
    exact parse_render_patterns h.two_le h.le_six (fun i hi => (hterms i hi).2.1)
      fun i hi => (hterms i hi).2.2.1.1
  · exact mem_ascending.mpr (List.mem_flatMap.mpr (hcovered m hm))
  · obtain ⟨i, hi, hmi⟩ := List.mem_flatMap.mp (mem_ascending.mp hm)
    obtain ⟨-, hf, hprime⟩ := hterms i hi
    rw [hf] at hmi
    exact Request.mem_allowed.mp (hprime.1.2 hmi)

variable {settings : Settings} {spec : Spec}

/-- **The sheet of a valid problem** is there, and has the lists in order and the
expression that the minimizer answers. -/
theorem visualize_spec (settings : Settings) (h : spec.request.Valid) :
    ∃ v a, visualize settings spec = .ok v
      ∧ settings.minimizer spec.normalize.request = .ok a ∧ v.expression = a.expression
      ∧ v.spec = { spec.normalize with expression := some v.expression } := by
  have hvalid := Spec.valid_normalize.mpr h
  obtain ⟨a, ha, -⟩ := minimize_spec hvalid settings.solver.exactCoverLimit
  obtain ⟨drawing, hd⟩ := Problem.exists_draw_eq_ok (p := ⟨settings, spec.normalize⟩) hvalid
    a.implicants
  have hv : visualize settings spec
      = Problem.solve ⟨settings, spec.normalize⟩ settings.minimizer := by
    rw [visualize, Problem.of_eq_ok settings h]
    rfl
  exact ⟨_, a, hv.trans (Problem.solve_eq_ok ha hd), ha, rfl, rfl⟩

/-- **The valid problems have a sheet**, and no other. -/
theorem visualize_eq_ok_iff : (∃ v, visualize settings spec = .ok v) ↔ spec.request.Valid := by
  constructor
  · rintro ⟨v, hv⟩
    cases hp : Problem.of settings spec with
    | error e =>
      rw [visualize, hp] at hv
      cases hv
    | ok p => exact Problem.exists_of_eq_ok_iff.mp ⟨p, hp⟩
  · intro h
    obtain ⟨v, -, hv, -⟩ := visualize_spec settings h
    exact ⟨v, hv⟩

/-! ## Outcomes -/

namespace Outcome

/-- **The outcome that a sheet tells**: the problem with the expression found, or
the problem as it came with the error. -/
def ofSheet (spec : Spec) (index : Nat) : Except MapError Sheet → Outcome
  | .ok v => ⟨index, v.spec, none⟩
  | .error e => ⟨index, spec, some e⟩

/-- **The outcome for a problem is told by its sheet**, with any solver. -/
theorem of_eq_ofSheet (settings : Settings) (solver : Solver) (spec : Spec) (index : Nat) :
    Outcome.of settings solver spec index
      = ofSheet spec index ((Problem.of settings spec).bind fun p => p.solve solver) := by
  unfold Outcome.of solved
  cases hp : Problem.of settings spec with
  | error e => rfl
  | ok p =>
    have hvalid := (Problem.of_eq_ok_iff.mp hp).1
    simp only [bind, Except.bind]
    cases ha : solver p.spec.request with
    | error e =>
      rw [Problem.solve, ha]
      rfl
    | ok a =>
      -- the one step that the sheet takes beyond the answer succeeds
      obtain ⟨drawing, hd⟩ := Problem.exists_draw_eq_ok hvalid a.implicants
      rw [Problem.solve_eq_ok ha hd]
      rfl

theorem isSolved_ofSheet (index : Nat) (sheet : Except MapError Sheet) :
    (ofSheet spec index sheet).isSolved = true ↔ ∃ v, sheet = .ok v := by
  cases sheet with
  | error e => exact ⟨nofun, fun ⟨v, hv⟩ => nomatch hv⟩
  | ok v => exact ⟨fun _ => ⟨v, rfl⟩, fun _ => rfl⟩

end Outcome

/-! ## Batches -/

/-- **The outcomes of a batch** are told by the sheets of its problems. -/
theorem solveBatch_eq (settings : Settings) (specs : List Spec) :
    solveBatch settings specs settings.minimizer
      = specs.zipIdx.map fun (spec, index) =>
        Outcome.ofSheet spec index (visualize settings spec) :=
  List.map_congr_left fun (spec, index) _ =>
    Outcome.of_eq_ofSheet settings settings.minimizer spec index

theorem getElem?_solveBatch {specs : List Spec} {k : Nat} (h : specs[k]? = some spec) :
    (solveBatch settings specs settings.minimizer)[k]?
      = some (Outcome.ofSheet spec k (visualize settings spec)) := by
  rw [solveBatch_eq, List.getElem?_map, List.getElem?_zipIdx, h, Nat.zero_add]
  rfl

/-- The solved problems are those with a sheet, in the order of the problems. -/
theorem specs_of_solved (sheet : Spec → Except MapError Sheet) (specs : List Spec) (start : Nat) :
    (((specs.zipIdx start).map fun (spec, index) =>
        Outcome.ofSheet spec index (sheet spec)).filter Outcome.isSolved).map Outcome.spec
      = specs.filterMap fun spec => (sheet spec).toOption.map Sheet.spec := by
  induction specs generalizing start with
  | nil => rfl
  | cons spec rest ih =>
    simp only [List.zipIdx_cons, List.map_cons, List.filterMap_cons]
    cases sheet spec with
    | error e => exact ih (start + 1)
    | ok v => exact congrArg (v.spec :: ·) (ih (start + 1))

/-- **What a batch exports** are the sheets of its problems, where there is one. -/
theorem outcomesCsv_solveBatch (settings : Settings) (specs : List Spec) :
    outcomesCsv (solveBatch settings specs settings.minimizer)
      = csv (specs.filterMap fun spec => (visualize settings spec).toOption.map Sheet.spec) := by
  rw [outcomesCsv, solveBatch_eq, specs_of_solved]

end Karnaugh
