import Karnaugh.Minimize.Basic
import Karnaugh.Proofs.CoverSelection
import Karnaugh.Proofs.PrimeImplicants
import Karnaugh.Proofs.Rendering

/-!
# The answer of the minimizer

`minimize` answers every valid request with the cover that is selected from
its primes (`minimize_spec`), and the answer is what it should be: a sum of
prime implicants that is right at every input where the value matters, and
that reads back as the function it stands for. When the cover was searched
for exactly, no sum of products for the request is shorter, whatever
patterns it is made of.

The last statement is about *all* patterns, while the search only knows the
prime implicants it is given. What closes the gap is that a pattern of a
competing sum either covers nothing that has to be covered, and can be left
out, or is below a listed prime implicant with no more literals
(`Request.InRange.exists_places`).
-/

namespace Karnaugh

open Pattern Implicant Cover

/-! ## Valid requests -/

/-- **A valid request** is in range, and no minterm is in both its lists. -/
structure Request.Valid (r : Request) : Prop extends r.InRange where
  /-- No don't-care is a minterm. -/
  disjoint : ∀ m ∈ r.dontCares, m ∉ r.minterms

/-- **What a check comes to**: the number of variables is wrong, or a minterm that is no
input is found, or one that is in both lists, or nothing is. -/
theorem Request.check_cases (r : Request) :
    (¬(minVariables ≤ r.numVars ∧ r.numVars ≤ maxVariables)
        ∧ r.check = .error (.unsupportedVariableCount r.numVars minVariables maxVariables))
      ∨ (minVariables ≤ r.numVars ∧ r.numVars ≤ maxVariables)
        ∧ ((∃ m, r.allowed.find? (fun m => inputCount r.numVars ≤ m) = some m
            ∧ r.check = .error (.mintermOutOfRange m r.numVars))
          ∨ r.allowed.find? (fun m => inputCount r.numVars ≤ m) = none
            ∧ ((∃ m, r.dontCares.find? (fun m => r.minterms.contains m) = some m
                ∧ r.check = .error (.overlappingDontCare m))
              ∨ r.dontCares.find? (fun m => r.minterms.contains m) = none
                ∧ r.check = .ok ())) := by
  unfold Request.check checkVariableCount
  by_cases hcount : minVariables ≤ r.numVars ∧ r.numVars ≤ maxVariables
  · refine Or.inr ⟨hcount, ?_⟩
    rw [if_pos hcount]
    cases hrange : r.allowed.find? fun m => inputCount r.numVars ≤ m with
    | some m =>
      rw [allowed] at hrange
      simp only [hrange, bind, Except.bind]
      exact Or.inl ⟨m, rfl, rfl⟩
    | none =>
      refine Or.inr ⟨rfl, ?_⟩
      rw [allowed] at hrange
      simp only [hrange, bind, Except.bind]
      cases hoverlap : r.dontCares.find? fun m => r.minterms.contains m with
      | some m => exact Or.inl ⟨m, rfl, rfl⟩
      | none => exact Or.inr ⟨rfl, rfl⟩
  · rw [if_neg hcount]
    exact Or.inl ⟨hcount, rfl⟩

/-- **The check accepts the valid requests**, and no other. -/
theorem Request.check_eq_ok_iff {r : Request} : r.check = .ok () ↔ r.Valid := by
  rcases r.check_cases with ⟨hcount, hcheck⟩ | ⟨hcount, ⟨m, hrange, hcheck⟩ | ⟨hrange, hrest⟩⟩
  · rw [hcheck]
    exact iff_of_false nofun fun h => hcount ⟨h.two_le, h.le_six⟩
  · rw [hcheck]
    refine iff_of_false nofun fun h => ?_
    have hlt := h.lt_inputCount m (List.mem_of_find?_eq_some hrange)
    have hle := List.find?_some hrange
    exact absurd hlt (of_decide_eq_true hle).not_gt
  rcases hrest with ⟨m, hoverlap, hcheck⟩ | ⟨hoverlap, hcheck⟩
  · rw [hcheck]
    refine iff_of_false nofun fun h => ?_
    exact h.disjoint m (List.mem_of_find?_eq_some hoverlap)
      (List.contains_iff_mem.mp (List.find?_some hoverlap))
  · rw [hcheck]
    refine iff_of_true rfl ⟨⟨hcount.1, hcount.2, fun m hm => ?_⟩, fun m hm hmem => ?_⟩
    · simpa using List.find?_eq_none.mp hrange m hm
    · exact List.find?_eq_none.mp hoverlap m hm (List.contains_iff_mem.mpr hmem)

/-! ## From places to implicants -/

/-- The implicants at chosen places, in the order in which they are shown. -/
def coverOf (primes : List Implicant) (chosen : List Nat) : List Implicant :=
  (chosen.filterMap (primes[·]?)).mergeSort displayLe

variable {primes : List Implicant} {chosen : List Nat}

theorem mem_coverOf {i : Implicant} :
    i ∈ coverOf primes chosen ↔ ∃ k ∈ chosen, primes[k]? = some i := by
  unfold coverOf
  rw [(List.mergeSort_perm _ _).mem_iff, List.mem_filterMap]

theorem subset_of_mem_coverOf {i : Implicant} (hi : i ∈ coverOf primes chosen) : i ∈ primes := by
  obtain ⟨k, -, hk⟩ := mem_coverOf.mp hi
  exact List.mem_of_getElem? hk

/-- The literals of the implicants are those at the places. -/
theorem map_literalCount_filterMap (h : ∀ k ∈ chosen, ∃ i, primes[k]? = some i) :
    (chosen.filterMap (primes[·]?)).map Implicant.literalCount
      = chosen.map (literalsAt primes) := by
  induction chosen with
  | nil => rfl
  | cons k rest ih =>
    obtain ⟨i, hi⟩ := h k List.mem_cons_self
    rw [List.filterMap_cons_some hi, List.map_cons, List.map_cons,
      ih fun j hj => h j (List.mem_cons_of_mem k hj), literalsAt, hi]
    rfl

/-- **The cost of a cover** is the cost of its places. -/
theorem cost_coverOf (hn : chosen.Nodup) (h : ∀ k ∈ chosen, ∃ i, primes[k]? = some i) :
    toLex ((coverOf primes chosen).length, ((coverOf primes chosen).map Implicant.literalCount).sum)
      = cost primes chosen.toFinset := by
  have hperm := List.mergeSort_perm (chosen.filterMap (primes[·]?)) displayLe
  have hmap := map_literalCount_filterMap h
  have hlen := congrArg List.length hmap
  rw [List.length_map, List.length_map] at hlen
  unfold cost coverOf
  rw [hperm.length_eq, (hperm.map Implicant.literalCount).sum_eq, hlen, hmap,
    List.toFinset_card_of_nodup hn, List.sum_toFinset _ hn]

/-- A cover is shown in strict order. -/
theorem pairwise_coverOf (hprimes : primes.Nodup) (hf : ∀ i ∈ primes, i.Faithful)
    (hn : chosen.Nodup) :
    (coverOf primes chosen).Pairwise fun i j => i.displayOrder j = .lt := by
  refine pairwise_mergeSort_displayLe (fun i hi => ?_) (hn.filterMap fun k l i hk hl => ?_)
  · obtain ⟨k, -, hk⟩ := List.mem_filterMap.mp hi
    exact hf i (List.mem_of_getElem? hk)
  · obtain ⟨hklt, hki⟩ := List.getElem?_eq_some_iff.mp hk
    obtain ⟨hllt, hli⟩ := List.getElem?_eq_some_iff.mp hl
    exact hprimes.getElem_inj_iff.mp (hki.trans hli.symm)

/-! ## Listed primes -/

section Listed

variable {r : Request}

theorem Request.InRange.mem_primes (h : r.InRange) (hok : primeImplicants r = .ok primes)
    {i : Implicant} :
    i ∈ primes ↔ i.Faithful ∧ i.pattern.IsPrime r.numVars r.allowed
      ∧ ∃ m ∈ i.pattern.covered, m ∈ r.minterms := by
  obtain ⟨primes', hok', -, hmem⟩ := primeImplicants_spec h
  rw [hok] at hok'
  rw [Except.ok.inj hok', hmem]

theorem Request.InRange.nodup_primes (h : r.InRange) (hok : primeImplicants r = .ok primes) :
    primes.Nodup := by
  obtain ⟨primes', hok', hsorted, -⟩ := primeImplicants_spec h
  rw [hok] at hok'
  rw [Except.ok.inj hok']
  exact nodup_of_pairwise_displayOrder hsorted

/-- The prime at a place has what its pattern covers. -/
theorem Request.InRange.covers_iff (h : r.InRange) (hok : primeImplicants r = .ok primes)
    {k m : Nat} : Covers primes k m ↔ ∃ i, primes[k]? = some i ∧ m ∈ i.pattern.covered := by
  refine exists_congr fun i => and_congr_right fun hi => ?_
  have hf : i.minterms = i.pattern.covered :=
    ((h.mem_primes hok).mp (List.mem_of_getElem? hi)).1
  rw [Implicant.covers, List.contains_iff_mem, hf]

/-- **What helps is below a listed prime**: an implicant with a minterm is
covered by one of the primes, which has no more literals. -/
theorem Request.InRange.exists_listed (h : r.InRange) (hok : primeImplicants r = .ok primes)
    {p : Pattern} (hp : p.IsImplicant r.numVars r.allowed) {m : Nat} (hm : m ∈ p.covered)
    (hmin : m ∈ r.minterms) :
    ∃ (k : Nat) (i : Implicant), primes[k]? = some i ∧ p.covered ⊆ i.pattern.covered
      ∧ i.literalCount ≤ p.literalCount := by
  obtain ⟨q, hq, hsub, hle⟩ := hp.exists_isPrime
  have hlisted : ofPattern q ∈ primes :=
    (h.mem_primes hok).mpr ⟨faithful_ofPattern q, hq, m, hsub hm, hmin⟩
  obtain ⟨k, hk⟩ := List.getElem?_of_mem hlisted
  exact ⟨k, ofPattern q, hk, hsub, hle⟩

/-- Every minterm has a prime, since it is an implicant itself. -/
theorem Request.InRange.exists_covers (h : r.InRange) (hok : primeImplicants r = .ok primes)
    {m : Nat} (hm : m ∈ ascending r.minterms) : ∃ k, Covers primes k m := by
  rw [mem_ascending] at hm
  have hallowed : m ∈ r.allowed := mem_allowed.mpr (Or.inl hm)
  have hcov := covered_exactly h.two_le h.le_six (h.lt_inputCount m hallowed)
  have himp : (exactly h.two_le h.le_six m).IsImplicant r.numVars r.allowed := by
    refine ⟨numVars_exactly _ _ m, ?_⟩
    rw [hcov]
    exact List.cons_subset.mpr ⟨hallowed, List.nil_subset _⟩
  have hself : m ∈ (exactly h.two_le h.le_six m).covered := by
    rw [hcov]
    exact List.mem_singleton_self m
  obtain ⟨k, i, hk, hsub, -⟩ := h.exists_listed hok himp hself hm
  exact ⟨k, (h.covers_iff hok).mpr ⟨i, hk, hsub hself⟩⟩

end Listed

/-! ## The answer -/

/-- The places of no implicants choose nothing. -/
theorem coverOf_nil (chosen : List Nat) : coverOf [] chosen = [] := by
  refine List.eq_nil_iff_forall_not_mem.mpr fun i hi => ?_
  obtain ⟨k, -, hk⟩ := mem_coverOf.mp hi
  cases hk

/-- Where nothing has to be covered, the answer has no terms. -/
theorem minimize_of_nil {r : Request} (h : r.Valid) (hnil : r.minterms = []) (exactLimit : Nat) :
    minimize exactLimit r = .ok ⟨Expression.render [], [], [], .none⟩ := by
  rw [minimize, Request.check_eq_ok_iff.mpr h, hnil]
  rfl

/-- Where something has to be covered, the answer is the selected cover. -/
theorem minimize_of_ne_nil {r : Request} (h : r.Valid) (hne : r.minterms ≠ [])
    (hok : primeImplicants r = .ok primes) (exactLimit : Nat) :
    ∃ selection, selectCover primes (ascending r.minterms) exactLimit = selection
      ∧ minimize exactLimit r = .ok
        ⟨Expression.render ((coverOf primes selection.chosen).map Implicant.pattern),
          coverOf primes selection.chosen, primes,
          ⟨primes.length, selection.essentialCount, selection.exact, ⟨0, 0⟩⟩⟩ := by
  have hsome : (ascending r.minterms).isEmpty = false := by
    obtain ⟨m, hm⟩ := List.exists_mem_of_ne_nil _ hne
    rw [List.isEmpty_eq_false_iff]
    exact List.ne_nil_of_mem (mem_ascending.mpr hm)
  refine ⟨_, rfl, ?_⟩
  rw [minimize, Request.check_eq_ok_iff.mpr h]
  simp only [bind, Except.bind, hsome, hok]
  rfl

/-- **The answer is the selected cover**, also where there is nothing to
cover. -/
theorem minimize_spec {r : Request} (h : r.Valid) (exactLimit : Nat) :
    ∃ a, minimize exactLimit r = .ok a
      ∧ primeImplicants r = .ok a.primes
      ∧ a.implicants
        = coverOf a.primes (selectCover a.primes (ascending r.minterms) exactLimit).chosen
      ∧ a.expression = Expression.render (a.implicants.map Implicant.pattern)
      ∧ (a.statistics.exactCover = true ∨ r.minterms = []
        → (selectCover a.primes (ascending r.minterms) exactLimit).exact = true) := by
  obtain ⟨primes, hok, -, hmem⟩ := primeImplicants_spec h.toInRange
  by_cases hnil : r.minterms = []
  · have hprimes : primes = [] := by
      refine List.eq_nil_iff_forall_not_mem.mpr fun i hi => ?_
      obtain ⟨-, -, m, -, hm⟩ := (hmem i).mp hi
      rw [hnil] at hm
      cases hm
    rw [hprimes] at hok
    refine ⟨_, minimize_of_nil h hnil exactLimit, hok, (coverOf_nil _).symm, rfl, fun _ => ?_⟩
    rw [hnil]
    exact decide_eq_true (show 0 ≤ exactLimit from Nat.zero_le _)
  · obtain ⟨_, rfl, hminimize⟩ := minimize_of_ne_nil h hnil hok exactLimit
    exact ⟨_, hminimize, hok, rfl, rfl, fun hexact => hexact.resolve_right hnil⟩

/-- The answer counts the essential primes. -/
theorem essentialCount_of_minimize {r : Request} (h : r.Valid) {exactLimit : Nat} {a : Answer}
    (ha : minimize exactLimit r = .ok a) :
    a.statistics.essentialCount = (essentials a.primes (ascending r.minterms)).length := by
  by_cases hnil : r.minterms = []
  · obtain rfl := Except.ok.inj ((minimize_of_nil h hnil exactLimit).symm.trans ha)
    rw [hnil]
    rfl
  · obtain ⟨primes, hok, -⟩ := primeImplicants_spec h.toInRange
    obtain ⟨_, rfl, hminimize⟩ := minimize_of_ne_nil h hnil hok exactLimit
    obtain rfl := Except.ok.inj (hminimize.symm.trans ha)
    rfl

/-- **The terms of an answer** are listed primes with what their patterns
cover, and together they have all minterms. -/
theorem minimize_terms {r : Request} (h : r.Valid) {exactLimit : Nat} {a : Answer}
    (ha : minimize exactLimit r = .ok a) :
    (∀ i ∈ a.implicants,
        i ∈ a.primes ∧ i.Faithful ∧ i.pattern.IsPrime r.numVars r.allowed)
      ∧ ∀ m ∈ r.minterms, ∃ i ∈ a.implicants, m ∈ i.minterms := by
  have hin := h.toInRange
  obtain ⟨a', hok, hprimes, himplicants, -⟩ := minimize_spec h exactLimit
  obtain rfl := Except.ok.inj (ha.symm.trans hok)
  constructor
  · intro i hi
    have hlisted : i ∈ a.primes := subset_of_mem_coverOf (himplicants ▸ hi)
    obtain ⟨hf, hprime, -⟩ := (hin.mem_primes hprimes).mp hlisted
    exact ⟨hlisted, hf, hprime⟩
  · intro m hm
    obtain ⟨hcovers, -⟩ := selectCover_covers (fun m => hin.exists_covers hprimes) exactLimit
    obtain ⟨k, hk, i, hi, him⟩ := hcovers m (mem_ascending.mpr hm)
    refine ⟨i, ?_, List.contains_iff_mem.mp him⟩
    rw [himplicants]
    exact mem_coverOf.mpr ⟨k, hk, hi⟩

/-- **The patterns of an answer** are on the variables of the request. They cover all
minterms, and nothing that must not be covered. -/
theorem covered_of_minimize {r : Request} (h : r.Valid) {exactLimit : Nat} {a : Answer}
    (ha : minimize exactLimit r = .ok a) :
    (∀ m ∈ r.minterms, ∃ i ∈ a.implicants, m ∈ i.pattern.covered)
      ∧ ∀ i ∈ a.implicants, i.pattern.numVars = r.numVars
        ∧ ∀ m ∈ i.pattern.covered, m ∈ r.minterms ∨ m ∈ r.dontCares := by
  obtain ⟨hterms, hcovered⟩ := minimize_terms h ha
  refine ⟨fun m hm => ?_, fun i hi => ?_⟩
  · obtain ⟨i, hi, him⟩ := hcovered m hm
    obtain ⟨-, hf, -⟩ := hterms i hi
    exact ⟨i, hi, hf ▸ him⟩
  · obtain ⟨-, -, ⟨⟨hvars, hsub⟩, -⟩⟩ := hterms i hi
    exact ⟨hvars, fun m hm => Request.mem_allowed.mp (hsub hm)⟩

/-- **What is read back** from a sum of implicants: the minterms of all of
them. -/
theorem parse_render_patterns {n : Nat} (two_le : minVariables ≤ n) (le_six : n ≤ maxVariables)
    {cover : List Implicant} (hf : ∀ i ∈ cover, i.Faithful)
    (hn : ∀ i ∈ cover, i.pattern.numVars = n) :
    Expression.parse (Expression.render (cover.map Implicant.pattern)) n
      = .ok (ascending (cover.flatMap Implicant.minterms)) := by
  have hvars : ∀ p ∈ cover.map Implicant.pattern, p.numVars = n := by
    intro p hp
    obtain ⟨i, hi, rfl⟩ := List.mem_map.mp hp
    exact hn i hi
  rw [Expression.parse_render two_le le_six hvars, List.flatMap_map]
  exact congrArg (fun ms => Except.ok (ascending ms))
    (List.flatMap_congr fun i hi => (hf i hi).symm)

/-- **The answer represents the request.** Every valid request is answered.
The terms of the answer are listed primes, each with the minterms that its
pattern covers, and stand in strict order. Together they have all minterms
and nothing that must not be covered. The expression reads back as what they
have, which is the function itself when there are no don't-cares. -/
theorem minimize_represents (r : Request) (h : r.Valid) (exactLimit : Nat) :
    ∃ a, minimize exactLimit r = .ok a
      ∧ (∀ i ∈ a.implicants, i.minterms = i.pattern.covered ∧ i ∈ a.primes)
      ∧ (∀ m ∈ r.minterms, ∃ i ∈ a.implicants, m ∈ i.minterms)
      ∧ (∀ i ∈ a.implicants, ∀ m ∈ i.minterms, m ∈ r.minterms ∨ m ∈ r.dontCares)
      ∧ a.implicants.Pairwise (fun i j => i.displayOrder j = .lt)
      ∧ Expression.parse a.expression r.numVars
          = .ok (ascending (a.implicants.flatMap Implicant.minterms))
      ∧ (r.dontCares = []
          → Expression.parse a.expression r.numVars = .ok (ascending r.minterms)) := by
  have hin := h.toInRange
  obtain ⟨a, hok, hprimes, himplicants, hexpression, -⟩ := minimize_spec h exactLimit
  obtain ⟨hterms, hcovered⟩ := minimize_terms h hok
  have hlisted : ∀ i ∈ a.implicants, i ∈ a.primes := fun i hi => (hterms i hi).1
  have hfaithful : ∀ i ∈ a.primes, i.Faithful := fun i hi => ((hin.mem_primes hprimes).mp hi).1
  have hallowed : ∀ i ∈ a.implicants, ∀ m ∈ i.minterms, m ∈ r.minterms ∨ m ∈ r.dontCares := by
    intro i hi m hm
    rw [hfaithful i (hlisted i hi)] at hm
    exact ((covered_of_minimize h hok).2 i hi).2 m hm
  have hparse : Expression.parse a.expression r.numVars
      = .ok (ascending (a.implicants.flatMap Implicant.minterms)) := by
    rw [hexpression]
    exact parse_render_patterns hin.two_le hin.le_six (fun i hi => hfaithful i (hlisted i hi))
      fun i hi => ((hin.mem_primes hprimes).mp (hlisted i hi)).2.1.1.1
  refine ⟨a, hok, fun i hi => ⟨hfaithful i (hlisted i hi), hlisted i hi⟩, hcovered, hallowed, ?_,
    hparse, fun hnone => ?_⟩
  · rw [himplicants]
    exact pairwise_coverOf (hin.nodup_primes hprimes) hfaithful
      ((pairwise_chosen _ _ _).imp Nat.ne_of_lt)
  · -- without don't-cares the terms have the minterms and nothing else
    rw [hparse]
    refine congrArg Except.ok (eq_of_ascending (pairwise_ascending _) (pairwise_ascending _)
      fun m => ?_)
    rw [mem_ascending, mem_ascending, List.mem_flatMap]
    constructor
    · rintro ⟨i, hi, hm⟩
      refine (hallowed i hi m hm).resolve_right fun hd => ?_
      rw [hnone] at hd
      cases hd
    · exact hcovered m

/-- The theorem at a request without don't-cares, where it repeats a minterm
and lists them in no order. -/
theorem minimize_represents_no_dontCares :
    (⟨3, [6, 1, 7, 6, 5], []⟩ : Request).Valid
      ∧ ∃ a, minimize 20 ⟨3, [6, 1, 7, 6, 5], []⟩ = .ok a
        ∧ (∀ i ∈ a.implicants, i.minterms = i.pattern.covered ∧ i ∈ a.primes)
        ∧ (∀ m ∈ [6, 1, 7, 6, 5], ∃ i ∈ a.implicants, m ∈ i.minterms)
        ∧ (∀ i ∈ a.implicants, ∀ m ∈ i.minterms, m ∈ [6, 1, 7, 6, 5])
        ∧ a.implicants.Pairwise (fun i j => i.displayOrder j = .lt)
        ∧ Expression.parse a.expression 3 = .ok [1, 5, 6, 7] := by
  have h : (⟨3, [6, 1, 7, 6, 5], []⟩ : Request).Valid :=
    ⟨⟨by decide, by decide, by decide⟩, by decide⟩
  obtain ⟨a, hok, hlisted, hall, honly, hsorted, -, hparse⟩ := minimize_represents _ h 20
  exact ⟨h, a, hok, hlisted, hall, fun i hi m hm => (honly i hi m hm).resolve_right nofun,
    hsorted, hparse rfl⟩

/-! ## No shorter sum -/

/-- **A competing sum is matched by listed primes**, which have all the
minterms that it has and cost no more. -/
theorem Request.InRange.exists_places {r : Request} (h : r.InRange)
    (hok : primeImplicants r = .ok primes) {ps : List Pattern}
    (hps : ∀ p ∈ ps, p.IsImplicant r.numVars r.allowed) :
    ∃ X : Finset ℕ,
      (∀ p ∈ ps, ∀ m ∈ p.covered, m ∈ r.minterms → ∃ k ∈ X, Covers primes k m)
        ∧ X.card ≤ ps.length
        ∧ ∑ k ∈ X, literalsAt primes k ≤ (ps.map Pattern.literalCount).sum := by
  induction ps with
  | nil => exact ⟨∅, nofun, le_rfl, le_rfl⟩
  | cons p rest ih =>
    obtain ⟨X, hcovers, hcard, hsum⟩ := ih fun q hq => hps q (List.mem_cons_of_mem p hq)
    rw [List.length_cons, List.map_cons, List.sum_cons]
    by_cases htouch : ∃ m ∈ p.covered, m ∈ r.minterms
    · obtain ⟨m₀, hm₀, hmin₀⟩ := htouch
      obtain ⟨k, i, hk, hsub, hle⟩ := h.exists_listed hok (hps p List.mem_cons_self) hm₀ hmin₀
      have hliterals : literalsAt primes k ≤ p.literalCount := by
        rw [literalsAt, hk]
        exact hle
      refine ⟨insert k X, fun q hq m hm hmin => ?_,
        (Finset.card_insert_le k X).trans (Nat.succ_le_succ hcard), ?_⟩
      · rcases List.mem_cons.mp hq with rfl | hq
        · exact ⟨k, Finset.mem_insert_self k X, (h.covers_iff hok).mpr ⟨i, hk, hsub hm⟩⟩
        · obtain ⟨j, hj, hjm⟩ := hcovers q hq m hm hmin
          exact ⟨j, Finset.mem_insert_of_mem hj, hjm⟩
      · by_cases hmem : k ∈ X
        · rw [Finset.insert_eq_of_mem hmem]
          omega
        · rw [Finset.sum_insert hmem]
          omega
    · -- what covers no minterm can be left out
      refine ⟨X, fun q hq m hm hmin => ?_, by omega, by omega⟩
      rcases List.mem_cons.mp hq with rfl | hq
      · exact absurd ⟨m, hm, hmin⟩ htouch
      · exact hcovers q hq m hm hmin

/-- **An exact answer is a shortest sum of products.** The patterns of its terms
have all minterms and nothing that must not be covered. Whatever patterns do
so, there are not fewer of them than the answer has terms, and if there are as
many, they do not have fewer literals. -/
theorem minimize_least (r : Request) (h : r.Valid) (exactLimit : Nat) :
    ∃ a, minimize exactLimit r = .ok a
      ∧ (∀ m ∈ r.minterms, ∃ i ∈ a.implicants, m ∈ i.pattern.covered)
      ∧ (∀ i ∈ a.implicants, i.pattern.numVars = r.numVars
        ∧ ∀ m ∈ i.pattern.covered, m ∈ r.minterms ∨ m ∈ r.dontCares)
      ∧ (a.statistics.exactCover = true ∨ r.minterms = []
        → ∀ ps : List Pattern, (∀ p ∈ ps, p.numVars = r.numVars)
          → (∀ m ∈ r.minterms, ∃ p ∈ ps, m ∈ p.covered)
          → (∀ p ∈ ps, ∀ m ∈ p.covered, m ∈ r.minterms ∨ m ∈ r.dontCares)
          → a.implicants.length < ps.length
            ∨ a.implicants.length = ps.length
              ∧ (a.implicants.map Implicant.literalCount).sum
                ≤ (ps.map Pattern.literalCount).sum) := by
  have hin := h.toInRange
  obtain ⟨a, hok, hprimes, himplicants, -, hexact⟩ := minimize_spec h exactLimit
  obtain ⟨hcovered, hallowed⟩ := covered_of_minimize h hok
  refine ⟨a, hok, hcovered, hallowed, fun hflag ps hn hall honly => ?_⟩
  have hcoverable : ∀ m ∈ ascending r.minterms, ∃ k, Covers a.primes k m :=
    fun m => hin.exists_covers hprimes
  have himplicant : ∀ p ∈ ps, p.IsImplicant r.numVars r.allowed := fun p hp =>
    ⟨hn p hp, fun m hm => Request.mem_allowed.mpr (honly p hp m hm)⟩
  obtain ⟨X, hX, hcard, hsum⟩ := hin.exists_places hprimes himplicant
  have hleast := selectCover_least (hexact hflag) (X := X) fun m hm => by
    rw [mem_ascending] at hm
    obtain ⟨p, hp, hmp⟩ := hall m hm
    exact hX p hp m hmp hm
  have hplaces : ∀ k ∈ (selectCover a.primes (ascending r.minterms) exactLimit).chosen,
      ∃ i, a.primes[k]? = some i := by
    intro k hk
    obtain ⟨m, -, i, hi, -⟩ := (selectCover_covers hcoverable exactLimit).2 k hk
    exact ⟨i, hi⟩
  rw [← cost_coverOf ((pairwise_chosen _ _ _).imp Nat.ne_of_lt) hplaces, ← himplicants, cost,
    Prod.Lex.toLex_le_toLex] at hleast
  dsimp only at hleast
  omega

/-- The theorem at a request with don't-cares for which the search has a
choice. -/
theorem minimize_least_with_choice :
    (⟨4, [4, 8, 10, 11, 12, 15], [9, 14]⟩ : Request).Valid
      ∧ ∃ a, minimize 20 ⟨4, [4, 8, 10, 11, 12, 15], [9, 14]⟩ = .ok a
        ∧ (∀ m ∈ [4, 8, 10, 11, 12, 15], ∃ i ∈ a.implicants, m ∈ i.pattern.covered)
        ∧ (∀ i ∈ a.implicants, i.pattern.numVars = 4
          ∧ ∀ m ∈ i.pattern.covered, m ∈ [4, 8, 10, 11, 12, 15] ∨ m ∈ [9, 14])
        ∧ ∀ ps : List Pattern, (∀ p ∈ ps, p.numVars = 4)
          → (∀ m ∈ [4, 8, 10, 11, 12, 15], ∃ p ∈ ps, m ∈ p.covered)
          → (∀ p ∈ ps, ∀ m ∈ p.covered, m ∈ [4, 8, 10, 11, 12, 15] ∨ m ∈ [9, 14])
          → a.implicants.length < ps.length
            ∨ a.implicants.length = ps.length
              ∧ (a.implicants.map Implicant.literalCount).sum
                ≤ (ps.map Pattern.literalCount).sum := by
  have h : (⟨4, [4, 8, 10, 11, 12, 15], [9, 14]⟩ : Request).Valid :=
    ⟨⟨by decide, by decide, by decide⟩, by decide⟩
  obtain ⟨a, hok, hcovered, hallowed, hleast⟩ := minimize_least _ h 20
  have hexact : (minimize 20 ⟨4, [4, 8, 10, 11, 12, 15], [9, 14]⟩).map
      (fun a => a.statistics.exactCover) = .ok true := by cbv
  rw [hok] at hexact
  exact ⟨h, a, hok, hcovered, hallowed, hleast (Or.inl (Except.ok.inj hexact))⟩

end Karnaugh
