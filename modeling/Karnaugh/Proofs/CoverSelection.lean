import Karnaugh.Proofs.GreedyRuns

/-!
# The choice of a cover

`selectCover` takes the essential primes, and covers what they leave either
by the search or greedily. Three facts are proved of any list of implicants:

* whichever way is taken, the minterms are covered if each of them has a
  prime (`selectCover_covers`);
* when the rest is searched for, no other set of primes that covers the
  minterms is cheaper (`selectCover_least`). The essential primes lose
  nothing, because every cover has them (`Cover.essentials_subset`);
* the essential primes are those that no covering set can do without
  (`Cover.mem_essentials_iff_forall`).
-/

namespace Karnaugh.Cover

variable {primes : List Implicant} {minterms indices : List Nat}

/-! ## What is essential, and what is left -/

theorem mem_number {c : Candidate} : c ∈ number primes ↔ primes[c.index]? = some c.prime := by
  simp only [number, List.mem_map, Prod.exists, List.mem_zipIdx_iff_getElem?]
  constructor
  · rintro ⟨i, k, hi, rfl⟩
    exact hi
  · intro h
    exact ⟨c.prime, c.index, h, rfl⟩

theorem map_index_number : (number primes).map Candidate.index = List.range primes.length := by
  unfold number
  rw [List.map_map, List.range_eq_range', ← List.zipIdx_map_snd 0 primes]
  rfl

theorem mem_covering {k m : Nat} : k ∈ covering primes m ↔ Covers primes k m := by
  simp only [covering, List.mem_map, List.mem_filter, mem_number]
  constructor
  · rintro ⟨c, ⟨hc, hcm⟩, rfl⟩
    exact ⟨c.prime, hc, hcm⟩
  · rintro ⟨i, hi, him⟩
    exact ⟨⟨k, i⟩, ⟨hi, him⟩, rfl⟩

theorem nodup_covering (m : Nat) : (covering primes m).Nodup := by
  refine List.Nodup.sublist (List.filter_sublist.map Candidate.index) ?_
  rw [map_index_number]
  exact List.nodup_range

/-- One prime alone covers a minterm when the list of those that do is a
singleton. -/
theorem covering_eq_singleton_iff {k m : Nat} :
    covering primes m = [k] ↔ ∀ j, Covers primes j m ↔ j = k := by
  constructor
  · intro h j
    rw [← mem_covering, h, List.mem_singleton]
  · intro h
    refine List.perm_singleton.mp ((List.perm_ext_iff_of_nodup (nodup_covering m)
      (List.nodup_singleton k)).mpr fun j => ?_)
    rw [mem_covering, h, List.mem_singleton]

/-- **Essential** is a prime that alone covers some minterm. -/
theorem mem_essentials {k : Nat} :
    k ∈ essentials primes minterms ↔ ∃ m ∈ minterms, ∀ j, Covers primes j m ↔ j = k := by
  simp only [essentials, mem_ascending, List.mem_filterMap, ← covering_eq_singleton_iff]
  refine exists_congr fun m => and_congr_right fun _ => ?_
  split
  · next only h => rw [h]; simp
  · next hno =>
    refine ⟨fun h => ?_, fun h => absurd h (hno k)⟩
    cases h

/-- Every set of primes that covers the minterms has the essential ones. -/
theorem essentials_subset {X : Finset ℕ} (hX : ∀ m ∈ minterms, ∃ k ∈ X, Covers primes k m) :
    (essentials primes minterms).toFinset ⊆ X := by
  intro k hk
  obtain ⟨m, hm, honly⟩ := mem_essentials.mp (List.mem_toFinset.mp hk)
  obtain ⟨j, hj, hjm⟩ := hX m hm
  rwa [(honly j).mp hjm] at hj

theorem mem_uncovered {m : Nat} :
    m ∈ uncovered primes indices minterms
      ↔ m ∈ minterms ∧ ∀ k ∈ indices, ¬Covers primes k m := by
  unfold uncovered
  rw [List.mem_filter, mem_ascending, Bool.not_eq_true', ← Bool.not_eq_true,
    List.any_eq_true]
  refine and_congr_right fun _ => ?_
  constructor
  · rintro hno k hk ⟨i, hi, him⟩
    exact hno ⟨⟨k, i⟩, mem_candidatesAt.mpr ⟨hk, hi⟩, him⟩
  · rintro hno ⟨c, hc, hcm⟩
    obtain ⟨hci, hcp⟩ := mem_candidatesAt.mp hc
    exact hno c.index hci ⟨c.prime, hcp, hcm⟩

theorem mem_candidates {k : Nat} :
    k ∈ candidates primes indices minterms
      ↔ k ∉ indices ∧ ∃ m ∈ minterms, Covers primes k m := by
  simp only [candidates, List.mem_map, List.mem_filter, mem_number, Bool.and_eq_true,
    Bool.not_eq_true', ← Bool.not_eq_true, List.contains_iff_mem, List.any_eq_true]
  constructor
  · rintro ⟨c, ⟨hc, hci, m, hm, hcm⟩, rfl⟩
    exact ⟨hci, m, hm, c.prime, hc, hcm⟩
  · rintro ⟨hk, m, hm, i, hi, him⟩
    exact ⟨⟨k, i⟩, ⟨hi, hk, m, hm, him⟩, rfl⟩

/-- **What the essential primes leave** to be covered. -/
def leftOver (primes : List Implicant) (minterms : List Nat) : List Nat :=
  uncovered primes (essentials primes minterms) minterms

theorem mem_leftOver {m : Nat} :
    m ∈ leftOver primes minterms
      ↔ m ∈ minterms ∧ ∀ k ∈ essentials primes minterms, ¬Covers primes k m :=
  mem_uncovered

/-- **What the essential primes leave is left to the candidates**: a prime
that has such a minterm is a candidate and not essential. -/
theorem mem_candidates_of_covers {k m : Nat} (hm : m ∈ leftOver primes minterms)
    (hkm : Covers primes k m) :
    k ∉ essentials primes minterms
      ∧ k ∈ candidates primes (essentials primes minterms) (leftOver primes minterms) := by
  have hess : k ∉ essentials primes minterms := fun h => (mem_leftOver.mp hm).2 k h hkm
  exact ⟨hess, mem_candidates.mpr ⟨hess, m, hm, hkm⟩⟩

/-- Where all minterms can be covered, the candidates can cover what the
essential primes leave. -/
theorem exists_candidate_covers (h : ∀ m ∈ minterms, ∃ k, Covers primes k m) :
    ∀ m ∈ leftOver primes minterms,
      ∃ k ∈ candidates primes (essentials primes minterms) (leftOver primes minterms),
        Covers primes k m := by
  intro m hm
  obtain ⟨k, hkm⟩ := h m (mem_leftOver.mp hm).1
  exact ⟨k, (mem_candidates_of_covers hm hkm).2, hkm⟩

/-! ## The selection -/

/-- The places of the primes that are chosen beside the essential ones. -/
def extra (primes : List Implicant) (minterms : List Nat) (exactLimit : Nat) : List Nat :=
  let remaining := uncovered primes (essentials primes minterms) minterms
  let places := candidates primes (essentials primes minterms) remaining
  if places.length ≤ exactLimit then exactCover primes places remaining
  else greedyCover primes places remaining

variable {exactLimit : Nat}

theorem chosen_eq (primes : List Implicant) (minterms : List Nat) (exactLimit : Nat) :
    (selectCover primes minterms exactLimit).chosen
      = ascending (essentials primes minterms ++ extra primes minterms exactLimit) := by
  simp only [selectCover, extra]

theorem extra_of_exact (h : (selectCover primes minterms exactLimit).exact = true) :
    extra primes minterms exactLimit
      = exactCover primes
          (candidates primes (essentials primes minterms) (leftOver primes minterms))
          (leftOver primes minterms) :=
  if_pos (of_decide_eq_true h)

theorem extra_of_not_exact (h : (selectCover primes minterms exactLimit).exact = false) :
    extra primes minterms exactLimit
      = greedyCover primes
          (candidates primes (essentials primes minterms) (leftOver primes minterms))
          (leftOver primes minterms) :=
  if_neg (of_decide_eq_false h)

/-- The extra primes are no essential ones, and each of them has something
of what these leave. -/
theorem of_mem_extra {k : Nat} (hk : k ∈ extra primes minterms exactLimit) :
    k ∉ essentials primes minterms ∧ ∃ m ∈ leftOver primes minterms, Covers primes k m := by
  rw [extra] at hk
  split at hk
  · obtain ⟨hplace, hcovers⟩ := of_mem_exactCover hk
    exact ⟨(mem_candidates.mp hplace).1, hcovers⟩
  · obtain ⟨hplace, hcovers⟩ := of_mem_greedyCover hk
    exact ⟨(mem_candidates.mp hplace).1, hcovers⟩

theorem nodup_extra (primes : List Implicant) (minterms : List Nat) (exactLimit : Nat) :
    (extra primes minterms exactLimit).Nodup := by
  rw [extra]
  split
  · exact nodup_exactCover _ _ _
  · exact nodup_greedyCover _ _ _

/-- **The selection is made of two parts**: the essential primes and the
extra ones, none of them twice. -/
theorem chosen_perm (primes : List Implicant) (minterms : List Nat) (exactLimit : Nat) :
    (selectCover primes minterms exactLimit).chosen.Perm
      (essentials primes minterms ++ extra primes minterms exactLimit) := by
  have hessential : (essentials primes minterms).Nodup :=
    (pairwise_ascending _).imp Nat.ne_of_lt
  have hdisjoint : ∀ k ∈ essentials primes minterms, ∀ j ∈ extra primes minterms exactLimit,
      k ≠ j := by
    rintro k hk j hj rfl
    exact (of_mem_extra hj).1 hk
  rw [chosen_eq]
  refine (List.perm_ext_iff_of_nodup ((pairwise_ascending _).imp Nat.ne_of_lt)
    (List.nodup_append.mpr ⟨hessential, nodup_extra _ _ _, hdisjoint⟩)).mpr fun k => ?_
  rw [mem_ascending]

/-- **Each chosen prime has a minterm**, also where some minterms cannot be
covered. -/
theorem covers_of_mem_chosen {k : Nat}
    (hk : k ∈ (selectCover primes minterms exactLimit).chosen) :
    ∃ m ∈ minterms, Covers primes k m := by
  rw [(chosen_perm _ _ _).mem_iff, List.mem_append] at hk
  rcases hk with hk | hk
  · obtain ⟨m, hm, honly⟩ := mem_essentials.mp hk
    exact ⟨m, hm, (honly k).mpr rfl⟩
  · obtain ⟨m, hm, hkm⟩ := (of_mem_extra hk).2
    exact ⟨m, (mem_leftOver.mp hm).1, hkm⟩

/-- **The selection covers what the extra primes cover of the rest**: a
minterm has a chosen prime if it has an extra one when the essential primes
leave it. -/
theorem exists_chosen_covers {m : Nat} (hm : m ∈ minterms)
    (hrest : m ∈ leftOver primes minterms →
      ∃ k ∈ extra primes minterms exactLimit, Covers primes k m) :
    ∃ k ∈ (selectCover primes minterms exactLimit).chosen, Covers primes k m := by
  simp only [(chosen_perm _ _ _).mem_iff, List.mem_append]
  by_cases hess : ∃ k ∈ essentials primes minterms, Covers primes k m
  · obtain ⟨k, hk, hkm⟩ := hess
    exact ⟨k, Or.inl hk, hkm⟩
  · obtain ⟨k, hk, hkm⟩ :=
      hrest (mem_leftOver.mpr ⟨hm, fun k hk hkm => hess ⟨k, hk, hkm⟩⟩)
    exact ⟨k, Or.inr hk, hkm⟩

/-- Where all minterms can be covered, the extra primes cover what is
left. -/
theorem exists_extra_covers (h : ∀ m ∈ minterms, ∃ k, Covers primes k m) {m : Nat}
    (hm : m ∈ leftOver primes minterms) :
    ∃ k ∈ extra primes minterms exactLimit, Covers primes k m := by
  have hcoverable := exists_candidate_covers h
  rw [extra]
  split
  · exact exactCover_covers hcoverable hm
  · exact greedyCover_covers hm (hcoverable m hm)

/-- **The selection covers the minterms**, in either way, and each chosen
prime has one of them. -/
theorem selectCover_covers (h : ∀ m ∈ minterms, ∃ k, Covers primes k m) (exactLimit : Nat) :
    (∀ m ∈ minterms, ∃ k ∈ (selectCover primes minterms exactLimit).chosen, Covers primes k m)
      ∧ ∀ k ∈ (selectCover primes minterms exactLimit).chosen,
          ∃ m ∈ minterms, Covers primes k m :=
  ⟨fun _ hm => exists_chosen_covers hm (exists_extra_covers h), fun _ => covers_of_mem_chosen⟩

theorem pairwise_chosen (primes : List Implicant) (minterms : List Nat) (exactLimit : Nat) :
    (selectCover primes minterms exactLimit).chosen.Pairwise (· < ·) := by
  rw [chosen_eq]
  exact pairwise_ascending _

/-- The cost of disjoint sets is the sum of their costs. -/
theorem cost_union_le {A X Y : Finset ℕ} (hX : Disjoint A X) (hY : Disjoint A Y)
    (h : cost primes X ≤ cost primes Y) : cost primes (A ∪ X) ≤ cost primes (A ∪ Y) := by
  rw [cost, cost, Prod.Lex.toLex_le_toLex] at h ⊢
  rw [Finset.card_union_of_disjoint hX, Finset.card_union_of_disjoint hY,
    Finset.sum_union hX, Finset.sum_union hY]
  omega

/-- **An exact selection is a cheapest cover**: no set of primes that covers
the minterms has fewer primes, or as many and fewer literals. -/
theorem selectCover_least {exactLimit : Nat}
    (hexact : (selectCover primes minterms exactLimit).exact = true) {X : Finset ℕ}
    (hX : ∀ m ∈ minterms, ∃ k ∈ X, Covers primes k m) :
    cost primes (selectCover primes minterms exactLimit).chosen.toFinset ≤ cost primes X := by
  set essential := essentials primes minterms with hessential
  have hchosen : (selectCover primes minterms exactLimit).chosen.toFinset
      = essential.toFinset ∪ (extra primes minterms exactLimit).toFinset := by
    rw [← List.toFinset_append]
    exact List.toFinset_eq_of_perm _ _ (chosen_perm _ _ _)
  -- what `X` has beside the essential primes covers the rest
  have hrest : cost primes (extra primes minterms exactLimit).toFinset
      ≤ cost primes (X \ essential.toFinset) := by
    rw [extra_of_exact hexact]
    refine exactCover_least fun m hm => ?_
    obtain ⟨k, hk, hkm⟩ := hX m (mem_leftOver.mp hm).1
    obtain ⟨hess, hplace⟩ := mem_candidates_of_covers hm hkm
    exact ⟨k, Finset.mem_sdiff.mpr ⟨hk, fun hk' => hess (List.mem_toFinset.mp hk')⟩, hplace, hkm⟩
  have hdisjoint : Disjoint essential.toFinset (extra primes minterms exactLimit).toFinset := by
    refine Finset.disjoint_left.mpr fun k hk hk' => ?_
    exact (of_mem_extra (List.mem_toFinset.mp hk')).1 (List.mem_toFinset.mp hk)
  rw [hchosen, ← Finset.union_sdiff_of_subset (essentials_subset hX)]
  exact cost_union_le hdisjoint Finset.disjoint_sdiff hrest

/-! ## Covering sets -/

/-- **A covering set**: places of primes that together have the minterms. -/
structure IsCovering (primes : List Implicant) (minterms : List Nat) (X : Finset ℕ) : Prop where
  /-- Each is the place of a prime. -/
  lt_length : ∀ k ∈ X, k < primes.length
  /-- Each minterm is covered. -/
  covers : ∀ m ∈ minterms, ∃ k ∈ X, Covers primes k m

theorem Covers.lt_length {k m : Nat} (h : Covers primes k m) : k < primes.length := by
  obtain ⟨i, hi, -⟩ := h
  exact (List.getElem?_eq_some_iff.mp hi).1

theorem exists_covers_of_mem {m : Nat} (h : ∃ i ∈ primes, i.covers m = true) :
    ∃ k, Covers primes k m := by
  obtain ⟨i, hi, him⟩ := h
  obtain ⟨k, hk⟩ := List.getElem?_of_mem hi
  exact ⟨k, i, hk, him⟩

/-- What is not essential can be left out: the other primes cover the minterms without
it. -/
theorem isCovering_erase (h : ∀ m ∈ minterms, ∃ k, Covers primes k m) {k : Nat}
    (hk : k ∉ essentials primes minterms) :
    IsCovering primes minterms ((Finset.range primes.length).erase k) where
  lt_length j hj := Finset.mem_range.mp (Finset.mem_of_mem_erase hj)
  covers m hm := by
    by_contra hnone
    have honly : ∀ j, Covers primes j m → j = k := fun j hjm => by
      by_contra hne
      exact hnone ⟨j, Finset.mem_erase.mpr ⟨hne, Finset.mem_range.mpr hjm.lt_length⟩, hjm⟩
    -- then `k` alone covers `m`
    obtain ⟨j, hjm⟩ := h m hm
    refine hk (mem_essentials.mpr ⟨m, hm, fun j' => ⟨honly j', ?_⟩⟩)
    rintro rfl
    exact honly j hjm ▸ hjm

/-- **The essential primes are those of every covering set.** -/
theorem mem_essentials_iff_forall (h : ∀ m ∈ minterms, ∃ k, Covers primes k m) {k : Nat} :
    k ∈ essentials primes minterms ↔ ∀ X, IsCovering primes minterms X → k ∈ X := by
  refine ⟨fun hk X hX => essentials_subset hX.covers (List.mem_toFinset.mpr hk), fun hall => ?_⟩
  by_contra hk
  exact Finset.notMem_erase k _ (hall _ (isCovering_erase h hk))

/-- There are as many essential primes as are counted. -/
theorem card_essentials (primes : List Implicant) (minterms : List Nat) (exactLimit : Nat) :
    (essentials primes minterms).toFinset.card
      = (selectCover primes minterms exactLimit).essentialCount :=
  List.toFinset_card_of_nodup ((pairwise_ascending _).imp Nat.ne_of_lt)

/-- **The selection is an ascending cover, and a cheapest one where the search is
exact.** Its places are those of primes, ascending, and together the primes have all
minterms. When it is called exact, no covering set is cheaper. In either mode it has
every prime that no covering set can do without, and counts just these as essential. -/
theorem selectCover_optimal (primes : List Implicant) (minterms : List Nat)
    (h : ∀ m ∈ minterms, ∃ i ∈ primes, i.covers m = true) (exactLimit : Nat) :
    ∃ s, selectCover primes minterms exactLimit = s
      ∧ s.chosen.Pairwise (· < ·)
      ∧ IsCovering primes minterms s.chosen.toFinset
      ∧ (s.exact = true → ∀ X, IsCovering primes minterms X →
          cost primes s.chosen.toFinset ≤ cost primes X)
      ∧ ∃ E : Finset ℕ, (∀ k, k ∈ E ↔ ∀ X, IsCovering primes minterms X → k ∈ X)
          ∧ E.card = s.essentialCount ∧ E ⊆ s.chosen.toFinset := by
  have hcoverable : ∀ m ∈ minterms, ∃ k, Covers primes k m :=
    fun m hm => exists_covers_of_mem (h m hm)
  obtain ⟨hcovers, hfrom⟩ := selectCover_covers hcoverable exactLimit
  have hcovering : IsCovering primes minterms
      (selectCover primes minterms exactLimit).chosen.toFinset := by
    refine ⟨fun k hk => ?_, fun m hm => ?_⟩
    · obtain ⟨m, -, hkm⟩ := hfrom k (List.mem_toFinset.mp hk)
      exact hkm.lt_length
    · obtain ⟨k, hk, hkm⟩ := hcovers m hm
      exact ⟨k, List.mem_toFinset.mpr hk, hkm⟩
  refine ⟨_, rfl, pairwise_chosen primes minterms exactLimit, hcovering,
    fun hexact X hX => selectCover_least hexact hX.covers,
    (essentials primes minterms).toFinset, fun k => ?_, card_essentials _ _ _,
    essentials_subset hcovering.covers⟩
  rw [List.mem_toFinset, mem_essentials_iff_forall hcoverable]

/-- Primes of which six make a cycle, where each minterm is shared by two of them, and
the last alone has the minterm 5. -/
def cyclicPrimes : List Implicant :=
  [⟨⟨[some false, some false, none], by decide, by decide⟩, [0, 1]⟩,
    ⟨⟨[some false, none, some true], by decide, by decide⟩, [1, 3]⟩,
    ⟨⟨[none, some true, some true], by decide, by decide⟩, [3, 7]⟩,
    ⟨⟨[some true, some true, none], by decide, by decide⟩, [7, 6]⟩,
    ⟨⟨[some true, none, some false], by decide, by decide⟩, [6, 4]⟩,
    ⟨⟨[none, some false, some false], by decide, by decide⟩, [4, 0]⟩,
    ⟨⟨[some true, none, some true], by decide, by decide⟩, [5, 7]⟩]

/-- The theorem at these primes, once where the search is exact and once where it is
not. -/
theorem selectCover_optimal_cyclicPrimes :
    (∀ m ∈ [7, 5, 0, 1, 3, 6, 4, 0], ∃ i ∈ cyclicPrimes, i.covers m = true)
      ∧ (∃ s, selectCover cyclicPrimes [7, 5, 0, 1, 3, 6, 4, 0] 6 = s
        ∧ s.exact = true ∧ s.chosen.Pairwise (· < ·)
        ∧ (∀ X, IsCovering cyclicPrimes [7, 5, 0, 1, 3, 6, 4, 0] X →
          cost cyclicPrimes s.chosen.toFinset ≤ cost cyclicPrimes X)
        ∧ ∃ E : Finset ℕ, E.card = 1 ∧ E ⊆ s.chosen.toFinset
          ∧ ∀ k, k ∈ E ↔ ∀ X, IsCovering cyclicPrimes [7, 5, 0, 1, 3, 6, 4, 0] X → k ∈ X)
      ∧ ∃ s, selectCover cyclicPrimes [7, 5, 0, 1, 3, 6, 4, 0] 5 = s
        ∧ s.exact = false ∧ IsCovering cyclicPrimes [7, 5, 0, 1, 3, 6, 4, 0] s.chosen.toFinset := by
  have h : ∀ m ∈ [7, 5, 0, 1, 3, 6, 4, 0], ∃ i ∈ cyclicPrimes, i.covers m = true := by decide
  obtain ⟨s, hs, hpairwise, -, hleast, E, hE, hcard, hsub⟩ := selectCover_optimal _ _ h 6
  obtain ⟨s', hs', -, hcovering, -⟩ := selectCover_optimal _ _ h 5
  have hexact : s.exact = true := by
    rw [← hs]
    rfl
  have hcount : s.essentialCount = 1 := by
    rw [← hs]
    rfl
  refine ⟨h, ⟨s, hs, hexact, hpairwise, hleast hexact, E, hcard.trans hcount, hsub, hE⟩, s', hs', ?_,
    hcovering⟩
  rw [← hs']
  rfl

end Karnaugh.Cover
