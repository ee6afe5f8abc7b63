import Karnaugh.Problem
import Karnaugh.Proofs.Minimization

/-!
# Requests with the same sets

The lists of a request stand for sets, so their order and repetitions must not show
in the answer. They might: rounds are sorted into buckets, covers are searched for in
the order of the primes, ties go to the first of several, and an error names the
first offender that is met.

They do not. The rounds start from the lists brought into order, and the rest of the
minimizer only asks what is a member (`Request.SameSets.primeImplicants_eq`,
`Request.SameSets.minimize_eq`). A problem has its lists in order before it is checked
at all, so that its sheet is the same too, and so is the error if there is no sheet
(`visualize_eq_of_sameSets`).
-/

namespace Karnaugh

/-- Lists with the same members are brought into the same order. -/
theorem ascending_congr {xs ys : List Nat} (h : ∀ m, m ∈ ys ↔ m ∈ xs) :
    ascending ys = ascending xs :=
  eq_of_ascending (pairwise_ascending ys) (pairwise_ascending xs) fun m => by
    rw [mem_ascending, mem_ascending, h]

/-! ## Requests -/

/-- **Two requests with the same sets**, whatever the order of their lists. -/
structure Request.SameSets (r r' : Request) : Prop where
  /-- They have the same number of variables. -/
  numVars_eq : r'.numVars = r.numVars
  /-- They have the same minterms. -/
  mem_minterms_iff : ∀ m, m ∈ r'.minterms ↔ m ∈ r.minterms
  /-- They have the same don't-cares. -/
  mem_dontCares_iff : ∀ m, m ∈ r'.dontCares ↔ m ∈ r.dontCares

namespace Request.SameSets

variable {r r' : Request}

theorem symm (h : r.SameSets r') : r'.SameSets r :=
  ⟨h.numVars_eq.symm, fun m => (h.mem_minterms_iff m).symm, fun m => (h.mem_dontCares_iff m).symm⟩

theorem mem_allowed_iff (h : r.SameSets r') (m : Nat) : m ∈ r'.allowed ↔ m ∈ r.allowed := by
  rw [Request.mem_allowed, Request.mem_allowed, h.mem_minterms_iff, h.mem_dontCares_iff]

/-- Validity is about what the lists have, not about their order. -/
theorem valid (h : r.SameSets r') (hr : r.Valid) : r'.Valid where
  two_le := h.numVars_eq ▸ hr.two_le
  le_six := h.numVars_eq ▸ hr.le_six
  lt_inputCount m hm := h.numVars_eq ▸ hr.lt_inputCount m ((h.mem_allowed_iff m).mp hm)
  disjoint m hd hm :=
    hr.disjoint m ((h.mem_dontCares_iff m).mp hd) ((h.mem_minterms_iff m).mp hm)

theorem firstRound_eq (h : r.SameSets r') : firstRound r' = firstRound r := by
  have hallowed : ascending (r'.minterms ++ r'.dontCares) = ascending (r.minterms ++ r.dontCares) :=
    ascending_congr h.mem_allowed_iff
  rw [firstRound, firstRound, hallowed, h.numVars_eq]

/-- **The primes depend on the sets only.** -/
theorem primeImplicants_eq (h : r.SameSets r') : primeImplicants r' = primeImplicants r := by
  have hcontains : r'.minterms.contains = r.minterms.contains := by
    funext m
    rw [Bool.eq_iff_iff, List.contains_iff_mem, List.contains_iff_mem, h.mem_minterms_iff]
  rw [primeImplicants, primeImplicants, h.firstRound_eq, hcontains]

/-- **The answer depends on the sets only**: the expression, its terms, the primes and
what is said of the cover. -/
theorem minimize_eq (h : r.SameSets r') (hr : r.Valid) (exactLimit : Nat) :
    minimize exactLimit r' = minimize exactLimit r := by
  rw [minimize, minimize, check_eq_ok_iff.mpr hr, check_eq_ok_iff.mpr (h.valid hr),
    h.primeImplicants_eq, ascending_congr h.mem_minterms_iff]

end Request.SameSets

/-! ## Problems -/

namespace Spec

variable {spec spec' : Spec}

/-- Bringing the lists into order changes no set. -/
theorem sameSets_normalize (spec : Spec) : spec.request.SameSets spec.normalize.request :=
  ⟨rfl, fun _ => mem_ascending, fun _ => mem_ascending⟩

theorem normalize_normalize (spec : Spec) : spec.normalize.normalize = spec.normalize := by
  show { spec with
    minterms := ascending (ascending spec.minterms)
    dontCares := ascending (ascending spec.dontCares) } = spec.normalize
  rw [ascending_congr fun _ => mem_ascending, ascending_congr fun _ => mem_ascending]
  rfl

/-- Bringing the lists into order makes no difference to the check. -/
theorem valid_normalize : spec.normalize.request.Valid ↔ spec.request.Valid :=
  ⟨spec.sameSets_normalize.symm.valid, spec.sameSets_normalize.valid⟩

/-- **Sets have one ordered form.** -/
theorem request_normalize_eq (h : spec.request.SameSets spec'.request) :
    spec'.normalize.request = spec.normalize.request := by
  have hn : spec'.numVars = spec.numVars := h.numVars_eq
  have hms : ascending spec'.minterms = ascending spec.minterms :=
    ascending_congr h.mem_minterms_iff
  have hds : ascending spec'.dontCares = ascending spec.dontCares :=
    ascending_congr h.mem_dontCares_iff
  rw [request, normalize, hn, hms, hds]
  rfl

end Spec

/-- The expression that a problem comes with has no part in its sheet. -/
theorem Problem.solve_congr {settings : Settings} {spec spec' : Spec}
    (h : spec'.request = spec.request) (solver : Solver) :
    Problem.solve ⟨settings, spec'⟩ solver = Problem.solve ⟨settings, spec⟩ solver := by
  obtain ⟨n, ms, ds, expression⟩ := spec
  obtain ⟨n', ms', ds', expression'⟩ := spec'
  obtain ⟨rfl, rfl, rfl⟩ := Request.mk.inj h
  rfl

/-- **A sheet is checked for and made** from the ordered lists. -/
theorem visualize_eq (settings : Settings) (spec : Spec) :
    visualize settings spec = spec.normalize.request.check.bind fun _ =>
      Problem.solve ⟨settings, spec.normalize⟩ settings.minimizer := by
  rw [visualize, Problem.of]
  cases spec.normalize.request.check <;> rfl

/-- **Order, repetitions and expressions do not show.** Problems with the same sets
have the same sheet or, if they have none, the same error. The minimizer by itself
answers valid requests with the same sets alike, and whether a request is valid depends
on its sets only. -/
theorem visualize_eq_of_sameSets (settings : Settings) :
    (∀ spec spec' : Spec, spec.request.SameSets spec'.request →
        visualize settings spec' = visualize settings spec)
      ∧ ∀ r r' : Request, r.SameSets r' → (r'.Valid ↔ r.Valid)
          ∧ (r.Valid → ∀ exactLimit, minimize exactLimit r' = minimize exactLimit r) := by
  refine ⟨fun spec spec' h => ?_, fun r r' h => ⟨⟨h.symm.valid, h.valid⟩, h.minimize_eq⟩⟩
  have hrequest := Spec.request_normalize_eq h
  rw [visualize_eq, visualize_eq, hrequest, Problem.solve_congr hrequest]

/-- The theorem at lists in another order and with other repetitions: once where there
is an answer, and once where of three offenders the same is named. -/
theorem visualize_eq_of_sameSets_reordered :
    (⟨3, [5, 1, 5], [7, 2]⟩ : Request).SameSets ⟨3, [1, 5], [2, 7, 2]⟩
      ∧ (⟨3, [5, 1, 5], [7, 2]⟩ : Request).Valid
      ∧ visualize .standard ⟨3, [1, 5], [2, 7, 2], none⟩
        = visualize .standard ⟨3, [5, 1, 5], [7, 2], some "B'C"⟩
      ∧ visualize .standard ⟨3, [8, 0, 9], [11], none⟩
        = visualize .standard ⟨3, [9, 0, 8], [11, 11], none⟩
      ∧ visualize .standard ⟨3, [9, 0, 8], [11, 11], none⟩ = .error (.mintermOutOfRange 8 3)
      ∧ minimize 0 ⟨3, [1, 5], [2, 7, 2]⟩ = minimize 0 ⟨3, [5, 1, 5], [7, 2]⟩ := by
  have hsame : (⟨3, [5, 1, 5], [7, 2]⟩ : Request).SameSets ⟨3, [1, 5], [2, 7, 2]⟩ :=
    ⟨rfl, fun m => by simp only [List.mem_cons]; tauto, fun m => by simp only [List.mem_cons]; tauto⟩
  have hoffending : (⟨3, [9, 0, 8], [11, 11]⟩ : Request).SameSets ⟨3, [8, 0, 9], [11]⟩ :=
    ⟨rfl, fun m => by simp only [List.mem_cons]; tauto, fun m => by simp only [List.mem_cons]; tauto⟩
  have hvalid : (⟨3, [5, 1, 5], [7, 2]⟩ : Request).Valid :=
    ⟨⟨by decide, by decide, by decide⟩, by decide⟩
  obtain ⟨hsheet, hanswer⟩ := visualize_eq_of_sameSets .standard
  exact ⟨hsame, hvalid, hsheet ⟨3, _, _, some "B'C"⟩ ⟨3, _, _, none⟩ hsame,
    hsheet ⟨3, _, _, none⟩ ⟨3, _, _, none⟩ hoffending, rfl, (hanswer _ _ hsame).2 hvalid 0⟩

end Karnaugh
