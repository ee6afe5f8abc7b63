import Karnaugh.Proofs.CoverSelection

/-!
# How far greed may miss

Where the rest is covered greedily, there may be more primes than needed,
but not arbitrarily many more. If no prime has more than `d` of the minterms
that the essential primes leave, and some `k` primes have them all, greed
takes at most `(1 + 1/2 + … + 1/d) · k` primes.

The proof lets the `k` primes pay for the run. A prime that has `g` of the
minterms that are left holds `1 + 1/2 + … + 1/g`. When greed takes a prime
with `g` minterms, nobody has more than `g`, so each of the `k` primes gives
up at least `1/g` for each minterm that it loses. Together they lose all `g`
minterms that are taken, and so pay at least one
(`Cover.one_add_potential_le`). Which of several best primes is taken does
not matter.
-/

namespace Karnaugh.Cover

variable {primes : List Implicant} {minterms : List Nat} {cands : List Candidate}

/-! ## Payments -/

/-- Coming down from `b` to `a` costs at least `1/g` a step, if `b` is not
above `g`. -/
theorem div_le_harmonic_sub {a b g : ℕ} (hab : a ≤ b) (hbg : b ≤ g) :
    ((b - a : ℕ) : ℚ) / g ≤ harmonic b - harmonic a := by
  induction b, hab using Nat.le_induction with
  | base => simp
  | succ b hab ih =>
    have hstep : (1 : ℚ) / g ≤ ((b + 1 : ℕ) : ℚ)⁻¹ := by
      rw [one_div]
      exact inv_anti₀ (by positivity) (by exact_mod_cast hbg)
    have hprev := ih (Nat.le_of_succ_le hbg)
    rw [Nat.succ_sub hab, harmonic_succ, Nat.cast_succ, add_div]
    linarith

theorem harmonic_mono {a b : ℕ} (h : a ≤ b) : harmonic a ≤ harmonic b := by
  have hpay := div_le_harmonic_sub h le_rfl
  have hnonneg : (0 : ℚ) ≤ ((b - a : ℕ) : ℚ) / b := by positivity
  linarith

/-- Candidates that have all the minterms have at least as many as there
are. -/
theorem length_le_sum_gain {D : Finset Candidate}
    (h : ∀ m ∈ minterms, ∃ d ∈ D, d.covers m = true) :
    minterms.length ≤ ∑ d ∈ D, gain d minterms := by
  induction minterms with
  | nil => exact Nat.zero_le _
  | cons m rest ih =>
    obtain ⟨d, hd, hdm⟩ := h m List.mem_cons_self
    have hrest := ih fun k hk => h k (List.mem_cons_of_mem m hk)
    have hone : 1 ≤ ∑ d ∈ D, if d.covers m then 1 else 0 := by
      refine le_trans ?_ (Finset.single_le_sum (fun _ _ => Nat.zero_le _) hd)
      rw [if_pos hdm]
    simp only [gain, List.countP_cons, Finset.sum_add_distrib, List.length_cons] at hrest ⊢
    omega

/-- **What candidates hold together** while minterms are left. -/
def potential (D : Finset Candidate) (minterms : List Nat) : ℚ :=
  ∑ d ∈ D, harmonic (gain d minterms)

/-- **A greedy step is paid for** by candidates that have all the
minterms. -/
theorem one_add_potential_le {D : Finset Candidate} {c : Candidate}
    (huseful : gain c minterms ≠ 0) (hgreatest : ∀ d ∈ D, gain d minterms ≤ gain c minterms)
    (hcov : ∀ m ∈ minterms, ∃ d ∈ D, d.covers m = true) :
    1 + potential D (minterms.filter fun m => !c.covers m) ≤ potential D minterms := by
  set rest := minterms.filter fun m => !c.covers m with hrest
  set taken := minterms.filter c.covers with htaken
  have hsplit : ∀ d : Candidate, gain d minterms = gain d taken + gain d rest := fun d =>
    List.countP_eq_countP_filter_add minterms d.covers c.covers
  have hlost : gain c minterms ≤ ∑ d ∈ D, gain d taken := by
    rw [show gain c minterms = taken.length from List.countP_eq_length_filter]
    exact length_le_sum_gain fun m hm => hcov m (List.mem_filter.mp hm).1
  have hpaid : (1 : ℚ) ≤ ∑ d ∈ D, ((gain d taken : ℕ) : ℚ) / gain c minterms := by
    rw [← Finset.sum_div, one_le_div (by positivity)]
    exact_mod_cast hlost
  calc 1 + potential D rest
      ≤ ∑ d ∈ D, (((gain d taken : ℕ) : ℚ) / gain c minterms + harmonic (gain d rest)) := by
        rw [Finset.sum_add_distrib]
        exact add_le_add_left hpaid _
    _ ≤ potential D minterms := Finset.sum_le_sum fun d hd => by
        have hstep := div_le_harmonic_sub (a := gain d rest) (b := gain d minterms)
          (by rw [hsplit d]; exact Nat.le_add_left _ _) (hgreatest d hd)
        rw [hsplit d, Nat.add_sub_cancel, ← hsplit d] at hstep
        linarith

/-- **A greedy run is paid for** by any candidates that have all the
minterms. -/
theorem IsGreedyRun.length_le_potential {picks : List Candidate}
    (h : IsGreedyRun cands minterms picks) {D : Finset Candidate} (hD : ∀ d ∈ D, d ∈ cands)
    (hcov : ∀ m ∈ minterms, ∃ d ∈ D, d.covers m = true) :
    (picks.length : ℚ) ≤ potential D minterms := by
  induction h with
  | done =>
    rw [List.length_nil, Nat.cast_zero]
    refine Finset.sum_nonneg fun d _ => ?_
    rw [← harmonic_zero]
    exact harmonic_mono (Nat.zero_le _)
  | @take minterms c picks _ huseful hgreatest _ ih =>
    have hrest := ih fun m hm => hcov m (List.mem_filter.mp hm).1
    have hstep := one_add_potential_le (gain_pos_iff.mpr huseful)
      (fun d hd => hgreatest d (hD d hd)) hcov
    rw [List.length_cons, Nat.cast_succ]
    linarith

/-! ## The bound -/

/-- **The most minterms that one prime has** of the given ones. -/
def breadth (primes : List Implicant) (minterms : List Nat) : ℕ :=
  (number primes).toFinset.sup fun c => gain c minterms

theorem gain_le_breadth {c : Candidate} (hc : primes[c.index]? = some c.prime) :
    gain c minterms ≤ breadth primes minterms :=
  Finset.le_sup (f := fun c => gain c minterms) (List.mem_toFinset.mpr (mem_number.mpr hc))

/-- Candidates hold no more than as many of the broadest prime would. -/
theorem potential_le {D : Finset Candidate} (hD : ∀ d ∈ D, primes[d.index]? = some d.prime) :
    potential D minterms ≤ harmonic (breadth primes minterms) * D.card := by
  rw [mul_comm, ← nsmul_eq_mul]
  exact Finset.sum_le_card_nsmul _ _ _ fun d hd => harmonic_mono (gain_le_breadth (hD d hd))

/-- **Greed takes at most so many times more primes than needed**: as many
as the sum of `1/g` for `g` up to the most minterms that one prime has. -/
theorem length_greedyCover_le {indices : List Nat} {X : Finset ℕ}
    (hX : ∀ m ∈ minterms, ∃ k ∈ X, k ∈ indices ∧ Covers primes k m) :
    ((greedyCover primes indices minterms).length : ℚ)
      ≤ harmonic (breadth primes minterms) * X.card := by
  obtain ⟨picks, hrun, hpicks⟩ := exists_greedyRun_greedyCover primes indices minterms
  -- the candidates at the places of `X` pay for the run
  set D := (candidatesAt primes indices).toFinset.filter (·.index ∈ X) with hD
  have hmem : ∀ d ∈ D, d ∈ candidatesAt primes indices := fun d hd =>
    List.mem_toFinset.mp (Finset.mem_filter.mp hd).1
  have hcov : ∀ m ∈ minterms, ∃ d ∈ D, d.covers m = true := by
    intro m hm
    obtain ⟨k, hkX, hk, i, hi, him⟩ := hX m hm
    exact ⟨⟨k, i⟩, Finset.mem_filter.mpr
      ⟨List.mem_toFinset.mpr (mem_candidatesAt.mpr ⟨hk, hi⟩), hkX⟩, him⟩
  have hcard : D.card ≤ X.card :=
    Finset.card_le_card_of_injOn Candidate.index (fun d hd => (Finset.mem_filter.mp hd).2)
      fun c hc d hd => eq_of_index_eq (hmem c hc) (hmem d hd)
  have hharmonic : 0 ≤ harmonic (breadth primes minterms) := by
    rw [← harmonic_zero]
    exact harmonic_mono (Nat.zero_le _)
  rw [hpicks, List.length_map]
  calc (picks.length : ℚ)
      ≤ potential D minterms := hrun.length_le_potential hmem hcov
    _ ≤ harmonic (breadth primes minterms) * D.card :=
        potential_le fun d hd => (mem_candidatesAt.mp (hmem d hd)).2
    _ ≤ harmonic (breadth primes minterms) * X.card :=
        mul_le_mul_of_nonneg_left (by exact_mod_cast hcard) hharmonic

/-- **A selection that is not exact is not arbitrarily bad.** Where every
minterm has a prime, it covers the minterms. Whatever primes cover what the
essential ones leave, the number of primes that are chosen beside the
essential ones is at most the number of these primes times
`1 + 1/2 + … + 1/d`, where `d` is the most that one prime has of what is
left. -/
theorem selectCover_harmonic (primes : List Implicant) (minterms : List Nat)
    (h : ∀ m ∈ minterms, ∃ i ∈ primes, i.covers m = true) (exactLimit : Nat)
    (hexact : (selectCover primes minterms exactLimit).exact = false) :
    (∀ m ∈ minterms, ∃ k ∈ (selectCover primes minterms exactLimit).chosen, Covers primes k m)
      ∧ ∀ X : Finset ℕ, (∀ m ∈ leftOver primes minterms, ∃ k ∈ X, Covers primes k m) →
          ((selectCover primes minterms exactLimit).chosen.length : ℚ)
              - (selectCover primes minterms exactLimit).essentialCount
            ≤ harmonic (breadth primes (leftOver primes minterms)) * X.card := by
  refine ⟨(selectCover_covers (fun m hm => exists_covers_of_mem (h m hm)) exactLimit).1,
    fun X hX => ?_⟩
  have hlength : (selectCover primes minterms exactLimit).chosen.length
      = (selectCover primes minterms exactLimit).essentialCount
        + (extra primes minterms exactLimit).length := by
    rw [(chosen_perm _ _ _).length_eq, List.length_append]
    rfl
  rw [hlength, Nat.cast_add, add_sub_cancel_left, extra_of_not_exact hexact]
  refine length_greedyCover_le fun m hm => ?_
  obtain ⟨k, hk, hkm⟩ := hX m hm
  exact ⟨k, hk, (mem_candidates_of_covers hm hkm).2, hkm⟩

/-- Primes among which greed goes astray. The first two are essential, for the
minterms 9 and 7. What they leave, the fourth and the fifth have alone, but
the third is as good as these are and is named first. -/
def luringPrimes : List Implicant :=
  [⟨⟨[none, some false, some false, some true], by decide, by decide⟩, [1, 9]⟩,
    ⟨⟨[none, some true, some true, some true], by decide, by decide⟩, [7, 15]⟩,
    ⟨⟨[none, some false, some true, some false], by decide, by decide⟩, [2, 10]⟩,
    ⟨⟨[some false, some false, none, some false], by decide, by decide⟩, [0, 2]⟩,
    ⟨⟨[some true, none, some true, some false], by decide, by decide⟩, [10, 14]⟩,
    ⟨⟨[some false, some false, some false, none], by decide, by decide⟩, [0, 1]⟩,
    ⟨⟨[some true, some true, some true, none], by decide, by decide⟩, [14, 15]⟩]

/-- The minterms of these primes. -/
def luredMinterms : List Nat := [0, 1, 2, 7, 9, 10, 14, 15]

/-- The theorem at these primes, where the bound is attained: two primes with
two minterms each cover what is left, and greed takes three. -/
theorem selectCover_harmonic_luringPrimes :
    (∀ m ∈ luredMinterms, ∃ i ∈ luringPrimes, i.covers m = true)
      ∧ ∃ s, selectCover luringPrimes luredMinterms 4 = s
        ∧ s.exact = false
        ∧ (∀ m ∈ luredMinterms, ∃ k ∈ s.chosen, Covers luringPrimes k m)
        ∧ (∀ m ∈ leftOver luringPrimes luredMinterms,
            ∃ k ∈ ({3, 4} : Finset ℕ), Covers luringPrimes k m)
        ∧ (s.chosen.length : ℚ) - s.essentialCount
            ≤ harmonic (breadth luringPrimes (leftOver luringPrimes luredMinterms)) * 2
        ∧ s.chosen.length = s.essentialCount + 3
        ∧ harmonic (breadth luringPrimes (leftOver luringPrimes luredMinterms)) * 2 = 3 := by
  have h : ∀ m ∈ luredMinterms, ∃ i ∈ luringPrimes, i.covers m = true := by decide
  have hleft : leftOver luringPrimes luredMinterms = [0, 2, 10, 14] := by decide
  have hX : ∀ m ∈ leftOver luringPrimes luredMinterms,
      ∃ k ∈ ({3, 4} : Finset ℕ), Covers luringPrimes k m := by
    rw [hleft]
    simp only [List.forall_mem_cons]
    exact ⟨⟨3, by decide, _, rfl, by decide⟩, ⟨3, by decide, _, rfl, by decide⟩,
      ⟨4, by decide, _, rfl, by decide⟩, ⟨4, by decide, _, rfl, by decide⟩, nofun⟩
  have hbreadth : breadth luringPrimes (leftOver luringPrimes luredMinterms) = 2 := by decide
  have hexact : (selectCover luringPrimes luredMinterms 4).exact = false := by decide
  obtain ⟨hcovers, hbound⟩ := selectCover_harmonic _ _ h 4 hexact
  have htwo := hbound _ hX
  rw [show ({3, 4} : Finset ℕ).card = 2 from rfl, Nat.cast_two] at htwo
  refine ⟨h, _, rfl, hexact, hcovers, hX, htwo, by decide, ?_⟩
  rw [hbreadth, harmonic_succ, harmonic_succ, harmonic_zero]
  norm_num

end Karnaugh.Cover
