import Karnaugh.Proofs.CsvTables
import Mathlib.Order.Bounds.Basic

/-!
# What a batch reports

The outcome for a problem is told by its sheet. What that means to somebody who reads the
outcomes is said here: which problems are solved, what stands with them, and in which words
the others are refused (`Spec.RefusedAs`). The words name the least number that is wrong,
since the lists of a problem are put in order before they are checked.

What a batch exports can be read as a table, and has the solved problems and nothing else.
-/

namespace Karnaugh

/-! ## Problems that are refused -/

/-- **How a problem is refused**, in words. The number of variables comes first, then the
minterms, then the don't-cares, and what is in both lists comes last. -/
inductive Spec.RefusedAs (spec : Spec) : String → Prop where
  /-- There are too few or too many variables. -/
  | count (h : ¬(2 ≤ spec.numVars ∧ spec.numVars ≤ 6)) :
    RefusedAs spec s!"unsupported variable count {spec.numVars} (supported: 2..=6)"
  /-- There is a minterm that is no input: the least is named. -/
  | minterm (hcount : 2 ≤ spec.numVars ∧ spec.numVars ≤ 6) {m : Nat}
    (h : IsLeast {k | k ∈ spec.minterms ∧ 2 ^ spec.numVars ≤ k} m) :
    RefusedAs spec s!"minterm {m} out of range for {spec.numVars} variables"
  /-- There is a don't-care that is no input. -/
  | dontCare (hcount : 2 ≤ spec.numVars ∧ spec.numVars ≤ 6)
    (hminterms : ∀ k ∈ spec.minterms, k < 2 ^ spec.numVars) {m : Nat}
    (h : IsLeast {k | k ∈ spec.dontCares ∧ 2 ^ spec.numVars ≤ k} m) :
    RefusedAs spec s!"minterm {m} out of range for {spec.numVars} variables"
  /-- There is a minterm that is a don't-care. -/
  | both (hcount : 2 ≤ spec.numVars ∧ spec.numVars ≤ 6)
    (hall : ∀ k, k ∈ spec.minterms ∨ k ∈ spec.dontCares → k < 2 ^ spec.numVars) {m : Nat}
    (h : IsLeast {k | k ∈ spec.minterms ∧ k ∈ spec.dontCares} m) :
    RefusedAs spec s!"minterm {m} is listed both as a minterm and as a don't-care"

/-- What is found in an ascending list is the least that could be. -/
theorem isLeast_of_find? {xs : List Nat} {p : Nat → Bool} {m : Nat}
    (h : (ascending xs).find? p = some m) : IsLeast {k | k ∈ xs ∧ p k = true} m := by
  obtain ⟨hm, before, after, hxs, hbefore⟩ := List.find?_eq_some_iff_append.mp h
  refine ⟨⟨mem_ascending.mp (List.mem_of_find?_eq_some h), hm⟩, fun k ⟨hk, hpk⟩ => ?_⟩
  have hsorted := pairwise_ascending xs
  rw [← mem_ascending, hxs] at hk
  rw [hxs] at hsorted
  rcases List.mem_append.mp hk with hk | hk
  · have hno := hbefore k hk
    rw [hpk] at hno
    exact absurd hno (by decide)
  · rcases List.mem_cons.mp hk with rfl | hk
    · exact le_rfl
    · exact ((List.pairwise_cons.mp (List.pairwise_append.mp hsorted).2.1).1 k hk).le

theorem message_unsupportedVariableCount (n : Nat) :
    (MapError.unsupportedVariableCount n minVariables maxVariables).message
      = s!"unsupported variable count {n} (supported: 2..=6)" := by
  have hbounds : " (supported: " ++ ("2" ++ ("..=" ++ ("6" ++ ")"))) = " (supported: 2..=6)" := by
    decide
  show "unsupported variable count " ++ toString n ++ " (supported: " ++ "2" ++ "..=" ++ "6" ++ ")"
    = "unsupported variable count " ++ toString n ++ " (supported: 2..=6)"
  simp only [String.append_assoc, hbounds]

/-- **A check that fails** says how the problem is refused. -/
theorem Spec.refusedAs_of_check {spec : Spec} {e : MapError}
    (h : Request.check ⟨spec.numVars, ascending spec.minterms, ascending spec.dontCares⟩
      = .error e) : spec.RefusedAs e.message := by
  rcases Request.check_cases ⟨spec.numVars, ascending spec.minterms, ascending spec.dontCares⟩ with
    ⟨hcount, hcheck⟩ | ⟨hcount, ⟨m, hrange, hcheck⟩ | ⟨hrange, hrest⟩⟩
  · cases hcheck.symm.trans h
    rw [message_unsupportedVariableCount]
    exact .count hcount
  · cases hcheck.symm.trans h
    rw [Request.allowed, List.find?_append, Option.or_eq_some_iff] at hrange
    rcases hrange with hminterm | ⟨hminterm, hdontCare⟩
    · refine .minterm hcount ?_
      show IsLeast {k | k ∈ spec.minterms ∧ inputCount spec.numVars ≤ k} m
      simpa using isLeast_of_find? hminterm
    · refine .dontCare hcount (fun k hk => ?_) ?_
      · show k < inputCount spec.numVars
        simpa using List.find?_eq_none.mp hminterm k (mem_ascending.mpr hk)
      · show IsLeast {k | k ∈ spec.dontCares ∧ inputCount spec.numVars ≤ k} m
        simpa using isLeast_of_find? hdontCare
  rcases hrest with ⟨m, hboth, hcheck⟩ | ⟨-, hcheck⟩
  · cases hcheck.symm.trans h
    refine .both hcount (fun k hk => ?_) ?_
    · have hmem : k ∈ Request.allowed
          ⟨spec.numVars, ascending spec.minterms, ascending spec.dontCares⟩ :=
        Request.mem_allowed.mpr (hk.imp mem_ascending.mpr mem_ascending.mpr)
      show k < inputCount spec.numVars
      simpa using List.find?_eq_none.mp hrange k hmem
    · simpa [and_comm] using isLeast_of_find? hboth
  · cases hcheck.symm.trans h

/-- **What has no sheet** is refused by its check. -/
theorem Spec.refusedAs_of_visualize {settings : Settings} {spec : Spec} {e : MapError}
    (h : visualize settings spec = .error e) : spec.RefusedAs e.message := by
  refine refusedAs_of_check ?_
  cases hcheck : spec.normalize.request.check with
  | error e' =>
    have he : visualize settings spec = .error e' := by
      rw [visualize, Problem.of, hcheck]
      rfl
    cases he.symm.trans h
    exact hcheck
  | ok u =>
    obtain ⟨v, hv⟩ := visualize_eq_ok_iff.mpr
      (Spec.valid_normalize.mp (Request.check_eq_ok_iff.mp hcheck))
    cases hv.symm.trans h

/-! ## Outcomes -/

namespace Outcome

variable {settings : Settings} {spec : Spec}

/-- **An outcome reports on a problem**: it is solved exactly if the problem has a
sheet, which the valid ones have. -/
structure Reports (o : Outcome) (settings : Settings) (spec : Spec) : Prop where
  /-- What has a sheet is solved, and nothing else. -/
  isSolved_iff : o.isSolved = true ↔ ∃ v, visualize settings spec = .ok v
  /-- What is valid is solved, and nothing else. -/
  valid_iff : o.isSolved = true ↔ spec.request.Valid
  /-- What is solved has its lists in order and the expression of the sheet, which is
  the result. -/
  solved : ∀ v, visualize settings spec = .ok v →
    o.error = none ∧ o.errorText = none
      ∧ o.spec = { spec.normalize with expression := some v.expression }
      ∧ o.resultText = v.expression
  /-- The expression reads back as all minterms, and nothing that is not to be
  covered. -/
  represents : ∀ v, visualize settings spec = .ok v →
    ∃ ms, Expression.parse v.expression spec.numVars = .ok ms
      ∧ (∀ m ∈ spec.minterms, m ∈ ms) ∧ ∀ m ∈ ms, m ∈ spec.minterms ∨ m ∈ spec.dontCares
  /-- What is not solved is kept as it came, with the error of the sheet. The text of the
  error is kept, is the result in words, and says how the problem is refused. -/
  failed : ∀ e, visualize settings spec = .error e →
    o.error = some e ∧ o.spec = spec ∧ o.errorText = some e.message
      ∧ spec.RefusedAs e.message ∧ o.resultText = "error: " ++ e.message

theorem reports_ofSheet (settings : Settings) (spec : Spec) (index : Nat) :
    (ofSheet spec index (visualize settings spec)).Reports settings spec where
  isSolved_iff := isSolved_ofSheet index _
  valid_iff := (isSolved_ofSheet index _).trans visualize_eq_ok_iff
  solved v hv := by
    obtain ⟨v', a, hv', -, -, hspec⟩ := visualize_spec settings (visualize_eq_ok_iff.mp ⟨v, hv⟩)
    obtain rfl := Except.ok.inj (hv.symm.trans hv')
    rw [hv]
    exact ⟨rfl, rfl, hspec, rfl⟩
  represents v hv := by
    have hvalid := visualize_eq_ok_iff.mp ⟨v, hv⟩
    obtain ⟨v', a, hv', ha, hexpression, -⟩ := visualize_spec settings hvalid
    obtain rfl := Except.ok.inj (hv.symm.trans hv')
    obtain ⟨ms, hparse, hall, honly⟩ :=
      parse_expression_of_minimize (Spec.valid_normalize.mpr hvalid) ha
    rw [hexpression]
    exact ⟨ms, hparse, fun m hm => hall m (mem_ascending.mpr hm),
      fun m hm => (honly m hm).imp mem_ascending.mp mem_ascending.mp⟩
  failed e he := by
    have hrefused := Spec.refusedAs_of_visualize he
    rw [he]
    exact ⟨rfl, rfl, rfl, hrefused, rfl⟩

end Outcome

/-! ## Batches -/

/-- **A batch reports on its problems one by one.** It has an outcome for each of
them, in their order and with its place for an index, and the outcome reports on
the problem. In any other batch it is the same but for the index. What is exported
are the problems that have a sheet, with the expression on it: read as a table, the export
has the names of the fields, and then the fields of these problems. -/
theorem solveBatch_reports (settings : Settings) (specs : List Spec) :
    (solveBatch settings specs settings.minimizer).length = specs.length
      ∧ (∀ k spec, specs[k]? = some spec →
        ∃ o : Outcome, (solveBatch settings specs settings.minimizer)[k]? = some o
          ∧ o.index = k ∧ o.Reports settings spec
          ∧ ∀ others j, others[j]? = some spec →
            (solveBatch settings others settings.minimizer)[j]? = some { o with index := j })
      ∧ outcomesCsv (solveBatch settings specs settings.minimizer)
        = csv (specs.filterMap fun spec => (visualize settings spec).toOption.map Sheet.spec)
      ∧ Csv.read (outcomesCsv (solveBatch settings specs settings.minimizer)).toList
        = some (Csv.header :: specs.filterMap fun spec =>
          (visualize settings spec).toOption.map fun v => v.spec.fields) := by
  refine ⟨?_, fun k spec hk => ?_, ?_, ?_⟩
  · rw [solveBatch, List.length_map, List.length_zipIdx]
  · refine ⟨_, getElem?_solveBatch hk, ?_, Outcome.reports_ofSheet settings spec k,
      fun others j hj => ?_⟩
    · cases visualize settings spec <;> rfl
    · rw [getElem?_solveBatch hj]
      cases visualize settings spec <;> rfl
  · exact outcomesCsv_solveBatch settings specs
  · rw [Csv.read_outcomesCsv, List.map_filterMap]
    simp only [Option.map_map]
    rfl

/-- Two valid problems around one that has a minterm in both lists. -/
def mixedSpecs : List Spec :=
  [Spec.of 3 [5, 1, 5] [7, 2], ⟨2, [1, 3, 1], [1], some "A"⟩, Spec.of 6 [] []]

/-- The theorem at such a batch: the problem between the others is kept as it came,
and they are solved and exported without it. -/
theorem solveBatch_reports_mixedSpecs :
    ∃ (v w : Sheet) (first second third : Outcome),
      solveBatch .standard mixedSpecs Settings.standard.minimizer = [first, second, third]
        ∧ first.spec = ⟨3, [1, 5], [2, 7], some v.expression⟩
        ∧ second.spec = ⟨2, [1, 3, 1], [1], some "A"⟩
        ∧ second.error = some (.overlappingDontCare 1)
        ∧ second.errorText = some "minterm 1 is listed both as a minterm and as a don't-care"
        ∧ third.spec = ⟨6, [], [], some w.expression⟩ ∧ third.index = 2
        ∧ outcomesCsv (solveBatch .standard mixedSpecs Settings.standard.minimizer)
          = csv [v.spec, w.spec]
        ∧ Csv.read (outcomesCsv (solveBatch .standard mixedSpecs Settings.standard.minimizer)).toList
          = some [Csv.header, v.spec.fields, w.spec.fields] := by
  obtain ⟨v, hv⟩ : ∃ v, visualize .standard (Spec.of 3 [5, 1, 5] [7, 2]) = .ok v :=
    visualize_eq_ok_iff.mpr ⟨⟨by decide, by decide, by decide⟩, by decide⟩
  obtain ⟨w, hw⟩ : ∃ w, visualize .standard (Spec.of 6 [] []) = .ok w :=
    visualize_eq_ok_iff.mpr ⟨⟨by decide, by decide, by decide⟩, by decide⟩
  have herror : visualize .standard ⟨2, [1, 3, 1], [1], some "A"⟩
      = .error (.overlappingDontCare 1) := rfl
  obtain ⟨hlength, hall, hcsv, hread⟩ := solveBatch_reports .standard mixedSpecs
  obtain ⟨first, hzero, -, hreports, -⟩ := hall 0 _ rfl
  obtain ⟨second, hone, -, hreports', -⟩ := hall 1 _ rfl
  obtain ⟨third, htwo, hindex, hreports'', -⟩ := hall 2 _ rfl
  obtain ⟨hcause, hspec, htext, -⟩ := hreports'.failed _ herror
  refine ⟨v, w, first, second, third, ?_, (hreports.solved v hv).2.2.1, hspec, hcause, htext,
    (hreports''.solved w hw).2.2.1, hindex, ?_, ?_⟩
  · refine List.ext_getElem? fun k => ?_
    match k with
    | 0 => exact hzero
    | 1 => exact hone
    | 2 => exact htwo
    | k + 3 => rw [List.getElem?_eq_none (by rw [hlength]; exact Nat.le_add_left 3 k)]; rfl
  · rw [hcsv]
    simp only [mixedSpecs, List.filterMap_cons, hv, hw, herror]
    rfl
  · rw [hread]
    simp only [mixedSpecs, List.filterMap_cons, hv, hw, herror]
    rfl

end Karnaugh
