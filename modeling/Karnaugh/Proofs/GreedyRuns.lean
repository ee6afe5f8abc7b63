import Karnaugh.Proofs.CoverSearch

/-!
# Greedy runs

`Cover.greedySearch` takes candidates one after the other. What one step
can do is said once, by `Cover.IsGreedyRun`: either no candidate has any of
the minterms that are left, and the run ends, or a candidate with as many of
them as any is taken, and the run goes on without its minterms. Which of
several such candidates is taken does not matter for anything that is proved
here, by induction on the run:

* a run covers what can be covered (`Cover.IsGreedyRun.covers`);
* each candidate has, when it is taken, a minterm that none taken before it
  has (`Cover.IsGreedyRun.exists_new`), so that none is taken twice.

That a candidate taken early has a minterm of its own *at the end* does not
follow, because those taken later may have all its minterms together.
-/

namespace Karnaugh.Cover

variable {primes : List Implicant} {indices minterms : List Nat} {cands : List Candidate}

/-- The favourite is one of the candidates, and none has more to gain. -/
theorem favourite_spec (minterms : List Nat) (c : Candidate) (rest : List Candidate) :
    favourite minterms c rest ∈ c :: rest
      ∧ ∀ d ∈ c :: rest, gain d minterms ≤ gain (favourite minterms c rest) minterms := by
  induction rest generalizing c with
  | nil => exact ⟨List.mem_singleton.mpr rfl, fun d hd => by rw [List.mem_singleton.mp hd]; rfl⟩
  | cons other rest ih =>
    rw [favourite]
    split
    · next hpref =>
      obtain ⟨hmem, hmax⟩ := ih other
      refine ⟨List.mem_cons_of_mem c hmem, fun d hd => ?_⟩
      rcases List.mem_cons.mp hd with rfl | hd
      · refine le_trans ?_ (hmax other List.mem_cons_self)
        simp only [preferable, Bool.or_eq_true, Bool.and_eq_true, decide_eq_true_eq,
          beq_iff_eq] at hpref
        omega
      · exact hmax d hd
    · next hpref =>
      obtain ⟨hmem, hmax⟩ := ih c
      have hother : gain other minterms ≤ gain c minterms := by
        simp only [preferable, Bool.or_eq_true, decide_eq_true_eq] at hpref
        omega
      refine ⟨?_, fun d hd => ?_⟩
      · rcases List.mem_cons.mp hmem with h | h
        · rw [h]; exact List.mem_cons_self
        · exact List.mem_cons_of_mem c (List.mem_cons_of_mem other h)
      · rcases List.mem_cons.mp hd with rfl | hd
        · exact hmax d List.mem_cons_self
        · rcases List.mem_cons.mp hd with rfl | hd
          · exact hother.trans (hmax c List.mem_cons_self)
          · exact hmax d (List.mem_cons_of_mem c hd)

theorem gain_pos_iff {c : Candidate} : gain c minterms ≠ 0 ↔ ∃ m ∈ minterms, c.covers m = true := by
  unfold gain
  rw [← Nat.pos_iff_ne_zero, List.countP_pos_iff]

/-! ## Runs -/

/-- **What greed may take** from the candidates, one after the other, while
minterms are left. -/
inductive IsGreedyRun (cands : List Candidate) : List Nat → List Candidate → Prop
  /-- No candidate has any of the minterms. -/
  | done {minterms : List Nat} (none_left : ∀ c ∈ cands, ∀ m ∈ minterms, ¬c.covers m = true) :
    IsGreedyRun cands minterms []
  /-- A candidate with the greatest gain is taken, and what it has is done
  with. -/
  | take {minterms : List Nat} {c : Candidate} {picks : List Candidate} (mem : c ∈ cands)
    (useful : ∃ m ∈ minterms, c.covers m = true)
    (greatest : ∀ d ∈ cands, gain d minterms ≤ gain c minterms)
    (rest : IsGreedyRun cands (minterms.filter fun m => !c.covers m) picks) :
    IsGreedyRun cands minterms (c :: picks)

/-- **A greedy step**: either nothing can be gained any more, or a candidate
with the greatest gain is taken and what it has is done with. -/
theorem greedySearch_succ (cands : List Candidate) (fuel : Nat) (minterms : List Nat) :
    (greedySearch cands (fuel + 1) minterms = []
        ∧ ∀ c ∈ cands, ∀ m ∈ minterms, ¬c.covers m = true)
      ∨ ∃ c ∈ cands, (∃ m ∈ minterms, c.covers m = true)
          ∧ (∀ d ∈ cands, gain d minterms ≤ gain c minterms)
          ∧ greedySearch cands (fuel + 1) minterms
            = c.index :: greedySearch cands fuel (minterms.filter fun m => !c.covers m) := by
  have hgaining : ∀ {c}, c ∈ cands.filter (fun c => gain c minterms != 0)
      ↔ c ∈ cands ∧ ∃ m ∈ minterms, c.covers m = true := by
    intro c
    rw [List.mem_filter, bne_iff_ne, gain_pos_iff]
  rw [greedySearch]
  cases hcases : cands.filter (fun c => gain c minterms != 0) with
  | nil =>
    refine Or.inl ⟨rfl, fun c hc m hm hcm => ?_⟩
    have hmem := hgaining.mpr ⟨hc, m, hm, hcm⟩
    rw [hcases] at hmem
    cases hmem
  | cons first rest =>
    rw [hcases] at hgaining
    obtain ⟨hmem, hmax⟩ := favourite_spec minterms first rest
    obtain ⟨hc, hhas⟩ := hgaining.mp hmem
    refine Or.inr ⟨_, hc, hhas, fun d hd => ?_, rfl⟩
    by_cases hzero : gain d minterms = 0
    · rw [hzero]; exact Nat.zero_le _
    · exact hmax d (hgaining.mpr ⟨hd, gain_pos_iff.mp hzero⟩)

/-- **The search is a greedy run**: a step for each minterm is enough. -/
theorem exists_greedyRun (cands : List Candidate) {fuel : Nat} (hfuel : minterms.length ≤ fuel) :
    ∃ picks, IsGreedyRun cands minterms picks
      ∧ greedySearch cands fuel minterms = picks.map Candidate.index := by
  induction fuel generalizing minterms with
  | zero =>
    rw [List.length_eq_zero_iff.mp (Nat.le_zero.mp hfuel)]
    exact ⟨[], .done fun c _ => nofun, rfl⟩
  | succ fuel ih =>
    rcases greedySearch_succ cands fuel minterms with
      ⟨hnil, hnone⟩ | ⟨c, hc, ⟨m, hm, hcm⟩, hgreatest, hcons⟩
    · exact ⟨[], .done hnone, hnil⟩
    · obtain ⟨picks, hrun, hpicks⟩ :=
        ih (Nat.lt_succ_iff.mp ((length_filter_lt hm hcm).trans_le hfuel))
      refine ⟨c :: picks, .take hc ⟨m, hm, hcm⟩ hgreatest hrun, ?_⟩
      rw [hcons, hpicks, List.map_cons]

namespace IsGreedyRun

variable {picks : List Candidate}

theorem subset (h : IsGreedyRun cands minterms picks) : picks ⊆ cands := by
  induction h with
  | done => exact List.nil_subset _
  | take hc _ _ _ ih => exact List.cons_subset.mpr ⟨hc, ih⟩

/-- **A run covers what can be covered.** -/
theorem covers (h : IsGreedyRun cands minterms picks) {m : Nat} (hm : m ∈ minterms)
    (hcov : ∃ c ∈ cands, c.covers m = true) : ∃ c ∈ picks, c.covers m = true := by
  induction h with
  | done hnone =>
    obtain ⟨c, hc, hcm⟩ := hcov
    exact absurd hcm (hnone c hc m hm)
  | @take minterms c picks _ _ _ _ ih =>
    by_cases hcm : c.covers m = true
    · exact ⟨c, List.mem_cons_self, hcm⟩
    · obtain ⟨d, hd, hdm⟩ := ih (List.mem_filter.mpr ⟨hm, by simpa using hcm⟩)
      exact ⟨d, List.mem_cons_of_mem c hd, hdm⟩

/-- **Each candidate is taken for a new minterm**, which none taken before
it has. -/
theorem exists_new (h : IsGreedyRun cands minterms picks) {before after : List Candidate}
    {c : Candidate} (hsplit : picks = before ++ c :: after) :
    ∃ m ∈ minterms, c.covers m = true ∧ ∀ d ∈ before, ¬d.covers m = true := by
  induction h generalizing before with
  | done => simp at hsplit
  | @take minterms first picks _ huseful _ _ ih =>
    cases before with
    | nil =>
      obtain ⟨m, hm, hfirst⟩ := huseful
      obtain ⟨rfl, -⟩ := List.cons.inj hsplit
      exact ⟨m, hm, hfirst, nofun⟩
    | cons d before =>
      obtain ⟨rfl, hrest⟩ := List.cons.inj hsplit
      obtain ⟨m, hm, hcm, hnone⟩ := ih hrest
      obtain ⟨hm, hfirst⟩ := List.mem_filter.mp hm
      refine ⟨m, hm, hcm, fun d' hd' => ?_⟩
      rcases List.mem_cons.mp hd' with rfl | hd'
      · simpa using hfirst
      · exact hnone d' hd'

/-- A candidate that is taken has one of the minterms. -/
theorem useful (h : IsGreedyRun cands minterms picks) {c : Candidate} (hc : c ∈ picks) :
    ∃ m ∈ minterms, c.covers m = true := by
  obtain ⟨before, after, hsplit⟩ := List.append_of_mem hc
  obtain ⟨m, hm, hcm, -⟩ := h.exists_new hsplit
  exact ⟨m, hm, hcm⟩

/-- No candidate is taken twice. -/
theorem nodup (h : IsGreedyRun cands minterms picks) : picks.Nodup := by
  induction h with
  | done => exact List.nodup_nil
  | @take minterms c picks _ _ _ hrest ih =>
    refine List.nodup_cons.mpr ⟨fun hc => ?_, ih⟩
    obtain ⟨m, hm, hcm⟩ := hrest.useful hc
    simp [hcm] at hm

end IsGreedyRun

/-! ## The cover that greed finds -/

theorem exists_greedyRun_greedyCover (primes : List Implicant) (indices minterms : List Nat) :
    ∃ picks, IsGreedyRun (candidatesAt primes indices) minterms picks
      ∧ greedyCover primes indices minterms = picks.map Candidate.index :=
  exists_greedyRun _ le_rfl

theorem nodup_greedyCover (primes : List Implicant) (indices minterms : List Nat) :
    (greedyCover primes indices minterms).Nodup := by
  obtain ⟨picks, hrun, hpicks⟩ := exists_greedyRun_greedyCover primes indices minterms
  rw [hpicks]
  exact nodup_map_index hrun.subset hrun.nodup

/-- **Each place is chosen for a new minterm**, which no prime at a place
chosen before has. -/
theorem exists_new_of_greedyCover {before after : List Nat} {k : Nat}
    (hsplit : greedyCover primes indices minterms = before ++ k :: after) :
    k ∈ indices ∧ ∃ m ∈ minterms, Covers primes k m ∧ ∀ j ∈ before, ¬Covers primes j m := by
  obtain ⟨picks, hrun, hpicks⟩ := exists_greedyRun_greedyCover primes indices minterms
  rw [hsplit, eq_comm, List.map_eq_append_iff] at hpicks
  obtain ⟨early, rest, hearly, rfl, hrest⟩ := hpicks
  obtain ⟨c, late, rfl, rfl, rfl⟩ := List.map_eq_cons_iff.mp hrest
  obtain ⟨m, hm, hcm, hnew⟩ := hrun.exists_new hearly
  have hcand : ∀ d ∈ early ++ c :: late, d ∈ candidatesAt primes indices := fun d hd =>
    hrun.subset (hearly ▸ hd)
  have hc := hcand c (List.mem_append_right _ List.mem_cons_self)
  refine ⟨(mem_candidatesAt.mp hc).1, m, hm, (covers_index_iff hc).mpr hcm, fun j hj => ?_⟩
  obtain ⟨d, hd, rfl⟩ := List.mem_map.mp hj
  rw [covers_index_iff (hcand d (List.mem_append_left _ hd))]
  exact hnew d hd

theorem of_mem_greedyCover {k : Nat} (hk : k ∈ greedyCover primes indices minterms) :
    k ∈ indices ∧ ∃ m ∈ minterms, Covers primes k m := by
  obtain ⟨before, after, hsplit⟩ := List.append_of_mem hk
  obtain ⟨hplace, m, hm, hkm, -⟩ := exists_new_of_greedyCover hsplit
  exact ⟨hplace, m, hm, hkm⟩

/-- **Greed covers what can be covered.** -/
theorem greedyCover_covers {m : Nat} (hm : m ∈ minterms)
    (hcov : ∃ k ∈ indices, Covers primes k m) :
    ∃ k ∈ greedyCover primes indices minterms, Covers primes k m := by
  obtain ⟨picks, hrun, hpicks⟩ := exists_greedyRun_greedyCover primes indices minterms
  obtain ⟨k, hk, i, hi, him⟩ := hcov
  obtain ⟨c, hc, hcm⟩ := hrun.covers hm ⟨⟨k, i⟩, mem_candidatesAt.mpr ⟨hk, hi⟩, him⟩
  rw [hpicks]
  exact ⟨c.index, List.mem_map_of_mem hc, (covers_index_iff (hrun.subset hc)).mpr hcm⟩

end Karnaugh.Cover
