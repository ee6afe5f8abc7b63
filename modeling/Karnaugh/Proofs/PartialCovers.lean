import Karnaugh.Proofs.CoverSelection

/-!
# Where not every minterm can be covered

Nothing keeps a list of minterms from having one that no prime has. It would
be reasonable to cover the others all the same. Greed does so: it ends when
nothing can be gained any more. The exact search does not: it only counts a
choice when nothing is left, so that a single minterm without a prime leaves
it without an answer, and the selection is the essential primes alone
(`Cover.chosen_eq_essentials`). So the two ways of covering the rest agree
about such a list only where there is nothing to choose from.

Whatever the list, each chosen prime is one of the list of primes and has one
of the minterms.
-/

namespace Karnaugh.Cover

variable {primes : List Implicant} {minterms : List Nat} {exactLimit : Nat}

/-- A minterm that no prime has is left over. -/
theorem mem_leftOver_of_not_covers {m : Nat} (hm : m ∈ minterms)
    (hnone : ∀ k, ¬Covers primes k m) : m ∈ leftOver primes minterms :=
  mem_leftOver.mpr ⟨hm, fun k _ => hnone k⟩

/-- **The exact search finds nothing** where a minterm has no prime, and the
selection is the essential primes. -/
theorem chosen_eq_essentials (hexact : (selectCover primes minterms exactLimit).exact = true)
    (h : ∃ m ∈ minterms, ∀ k, ¬Covers primes k m) :
    (selectCover primes minterms exactLimit).chosen = essentials primes minterms := by
  obtain ⟨m, hm, hnone⟩ := h
  have hextra : extra primes minterms exactLimit = [] := by
    rw [extra_of_exact hexact]
    exact exactCover_eq_nil ⟨m, mem_leftOver_of_not_covers hm hnone, fun k _ => hnone k⟩
  have hperm := chosen_perm primes minterms exactLimit
  rw [hextra, List.append_nil] at hperm
  exact hperm.eq_of_pairwise (fun a b _ _ hab hba => absurd hab (Nat.lt_asymm hba))
    (pairwise_chosen _ _ _) (pairwise_ascending _)

/-- **Greed leaves no minterm behind** that has a prime. -/
theorem exists_extra_covers_of_not_exact
    (hexact : (selectCover primes minterms exactLimit).exact = false) {m : Nat}
    (hm : m ∈ leftOver primes minterms) (h : ∃ k, Covers primes k m) :
    ∃ k ∈ extra primes minterms exactLimit, Covers primes k m := by
  obtain ⟨k, hkm⟩ := h
  rw [extra_of_not_exact hexact]
  exact greedyCover_covers hm ⟨k, (mem_candidates_of_covers hm hkm).2, hkm⟩

/-- **When every minterm that has a prime is covered**: exactly if the rest
is covered greedily, or all minterms have a prime, or those that the
essential primes leave have none. Where it is searched for exactly and a
minterm has no prime, the selection is the essential primes. In any case each
chosen place is that of a prime, which has one of the minterms. -/
theorem selectCover_covers_iff (primes : List Implicant) (minterms : List Nat) (exactLimit : Nat) :
    ((∀ m ∈ minterms, (∃ k, Covers primes k m) →
          ∃ k ∈ (selectCover primes minterms exactLimit).chosen, Covers primes k m)
        ↔ (selectCover primes minterms exactLimit).exact = false
          ∨ (∀ m ∈ minterms, ∃ k, Covers primes k m)
          ∨ ∀ m ∈ leftOver primes minterms, ∀ k, ¬Covers primes k m)
      ∧ ((selectCover primes minterms exactLimit).exact = true →
          (∃ m ∈ minterms, ∀ k, ¬Covers primes k m) →
            (selectCover primes minterms exactLimit).chosen = essentials primes minterms)
      ∧ ∀ k ∈ (selectCover primes minterms exactLimit).chosen,
          k < primes.length ∧ ∃ m ∈ minterms, Covers primes k m := by
  refine ⟨⟨fun hall => ?_, ?_⟩, chosen_eq_essentials, fun k hk => ?_⟩
  · by_contra hnot
    push Not at hnot
    obtain ⟨hexact, hnone, m, hm, hcov⟩ := hnot
    -- what the essential primes leave, they do not cover
    obtain ⟨hmem, hleft⟩ := mem_leftOver.mp hm
    obtain ⟨k, hk, hkm⟩ := hall m hmem hcov
    rw [chosen_eq_essentials (Bool.not_eq_false _ ▸ hexact) hnone] at hk
    exact hleft k hk hkm
  · rintro (hexact | hcoverable | hleft) m hm hcov
    · exact exists_chosen_covers hm fun hrest =>
        exists_extra_covers_of_not_exact hexact hrest hcov
    · exact (selectCover_covers hcoverable exactLimit).1 m hm
    · obtain ⟨k, hkm⟩ := hcov
      exact exists_chosen_covers hm fun hrest => absurd hkm (hleft m hrest k)
  · obtain ⟨m, hm, hkm⟩ := covers_of_mem_chosen hk
    exact ⟨hkm.lt_length, m, hm, hkm⟩

/-- **A minterm that has a prime is left behind**: two of the primes share the
minterm 0, and none covers the minterm 2. The minterm 0 is then covered
greedily, but not exactly. -/
theorem exists_covers_not_chosen :
    Covers cyclicPrimes 0 0
      ∧ selectCover cyclicPrimes [0, 2] standardExactLimit = ⟨[], 0, true⟩
      ∧ selectCover cyclicPrimes [0, 2] 0 = ⟨[0], 0, false⟩
      ∧ ¬∀ m ∈ [0, 2], (∃ k, Covers cyclicPrimes k m) →
          ∃ k ∈ (selectCover cyclicPrimes [0, 2] standardExactLimit).chosen,
            Covers cyclicPrimes k m := by
  have hcov : Covers cyclicPrimes 0 0 := ⟨_, rfl, rfl⟩
  have hexact : selectCover cyclicPrimes [0, 2] standardExactLimit = ⟨[], 0, true⟩ := by decide
  refine ⟨hcov, hexact, by decide, fun hall => ?_⟩
  rw [hexact] at hall
  obtain ⟨k, hk, -⟩ := hall 0 List.mem_cons_self ⟨0, hcov⟩
  cases hk

end Karnaugh.Cover
