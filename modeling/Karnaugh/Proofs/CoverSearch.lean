import Mathlib
import Karnaugh.Minimize.Cover

/-!
# The search for a cheapest cover

`Cover.search` walks a tree: at each node it takes the row with the fewest
options and tries them one after the other. It leaves out the branches that
cannot become cheaper than the best cover so far. The tree without this
shortcut has a list of leaves, `Cover.branches`, and what the search does is
told by them:

* the search compares all leaves and keeps the first of the cheapest, so
  that pruning does not change the result (`Cover.search_eq_foldl`,
  `Cover.exists_isFirstCheapest`);
* a leaf covers all rows with candidates that differ
  (`Cover.isCover_of_mem_branches`);
* whatever set of candidates covers all rows, one of the leaves takes its
  candidates from this set (`Cover.exists_branch_subset`).

So a cheapest leaf is a cheapest cover (`Cover.exactCover_least`). Nothing is
assumed of the primes, which may be any list of implicants.
-/

namespace Karnaugh.Cover

/-! ## Costs -/

/-- **The cost of a choice**, of which the first number counts more. -/
def Pick.cost (p : Pick) : ℕ ×ₗ ℕ := toLex (p.indices.length, p.literals)

theorem cheaper_iff {terms literals : Nat} {b : Pick} :
    Pick.cheaper terms literals b = true ↔ toLex (terms, literals) < b.cost := by
  unfold Pick.cost
  rw [Prod.Lex.toLex_lt_toLex]
  simp [Pick.cheaper]

namespace Pick

/-- Several primes more. -/
def addAll (p : Pick) (cs : List Candidate) : Pick := cs.foldl add p

theorem addAll_cons (p : Pick) (c : Candidate) (cs : List Candidate) :
    p.addAll (c :: cs) = (p.add c).addAll cs := rfl

theorem indices_addAll (p : Pick) (cs : List Candidate) :
    (p.addAll cs).indices = p.indices ++ cs.map Candidate.index := by
  induction cs generalizing p with
  | nil => simp [addAll]
  | cons c cs ih => rw [addAll_cons, ih, add, List.map_cons, List.append_assoc]; rfl

theorem literals_addAll (p : Pick) (cs : List Candidate) :
    (p.addAll cs).literals = p.literals + (cs.map fun c => c.prime.literalCount).sum := by
  induction cs generalizing p with
  | nil => simp [addAll]
  | cons c cs ih => rw [addAll_cons, ih, add, List.map_cons, List.sum_cons, Nat.add_assoc]

/-- **A hopeless choice stays so**: whatever is added to it, the best is not
replaced. -/
theorem better_addAll_of_hopeless {best : Option Pick} {p : Pick} (h : hopeless best p = true)
    (c : Candidate) (cs : List Candidate) :
    best = some (better best (p.addAll (c :: cs))) := by
  cases best with
  | none => simp [hopeless] at h
  | some b =>
    unfold hopeless at h
    rw [Bool.not_eq_true', ← Bool.not_eq_true, cheaper_iff, not_lt] at h
    rw [better, if_neg]
    rw [cheaper_iff, not_lt]
    refine h.trans ?_
    rw [Prod.Lex.toLex_le_toLex, indices_addAll, literals_addAll]
    simp only [List.length_append, List.length_map, List.length_cons]
    omega

end Pick

/-! ## The leaves of the tree -/

/-- **The leaves of the search tree**: the candidates chosen on the way to
each, in the order in which the search would come to them if it left out
nothing. -/
def branches : Nat → List Row → List (List Candidate)
  | _, [] => [[]]
  | 0, _ :: _ => []
  | fuel + 1, row :: rows =>
    (narrowest row rows).options.flatMap fun c =>
      (branches fuel (without c (row :: rows))).map (c :: ·)

/-- The better of the best choice so far and a choice extended to a leaf. -/
def keepBetter (p : Pick) (best : Option Pick) (cs : List Candidate) : Option Pick :=
  some (Pick.better best (p.addAll cs))

/-- Below a hopeless choice no leaf replaces the best. -/
theorem foldl_keepBetter_of_hopeless {best : Option Pick} {p : Pick}
    (h : Pick.hopeless best p = true) {leaves : List (List Candidate)}
    (hne : ∀ cs ∈ leaves, cs ≠ []) : leaves.foldl (keepBetter p) best = best := by
  induction leaves with
  | nil => rfl
  | cons cs rest ih =>
    obtain ⟨c, cs', rfl⟩ := List.exists_cons_of_ne_nil (hne cs List.mem_cons_self)
    rw [List.foldl_cons, keepBetter, ← Pick.better_addAll_of_hopeless h c cs']
    exact ih fun cs hcs => hne cs (List.mem_cons_of_mem _ hcs)

/-- **Pruning changes nothing**: the search compares all leaves in their
order. -/
theorem search_eq_foldl (fuel : Nat) (rows : List Row) (p : Pick) (best : Option Pick) :
    search fuel rows p best = (branches fuel rows).foldl (keepBetter p) best := by
  induction fuel generalizing rows p best with
  | zero =>
    cases rows with
    | nil => rfl
    | cons row rows => rfl
  | succ fuel ih =>
    cases rows with
    | nil => rfl
    | cons row rows =>
      rw [search]
      split
      · next h =>
        refine (foldl_keepBetter_of_hopeless h fun cs hcs => ?_).symm
        rw [branches, List.mem_flatMap] at hcs
        obtain ⟨c, -, hc⟩ := hcs
        obtain ⟨cs', -, rfl⟩ := List.mem_map.mp hc
        exact List.cons_ne_nil c cs'
      · rw [branches, List.foldl_flatMap]
        refine List.foldl_ext _ _ _ fun b c _ => ?_
        rw [ih, List.foldl_map]
        rfl

/-- **The first of the cheapest leaves**: all those before it are dearer,
and none after it is cheaper. -/
def IsFirstCheapest (leaves : List (List Candidate)) (cs : List Candidate) : Prop :=
  ∃ before after, leaves = before ++ cs :: after
    ∧ (∀ ds ∈ before, (Pick.nothing.addAll cs).cost < (Pick.nothing.addAll ds).cost)
    ∧ ∀ ds ∈ after, (Pick.nothing.addAll cs).cost ≤ (Pick.nothing.addAll ds).cost

theorem IsFirstCheapest.mem {leaves : List (List Candidate)} {cs : List Candidate}
    (h : IsFirstCheapest leaves cs) : cs ∈ leaves := by
  obtain ⟨before, after, rfl, -, -⟩ := h
  exact List.mem_append_right _ List.mem_cons_self

theorem IsFirstCheapest.cost_le {leaves : List (List Candidate)} {cs ds : List Candidate}
    (h : IsFirstCheapest leaves cs) (hds : ds ∈ leaves) :
    (Pick.nothing.addAll cs).cost ≤ (Pick.nothing.addAll ds).cost := by
  obtain ⟨before, after, rfl, hbefore, hafter⟩ := h
  rcases List.mem_append.mp hds with hds | hds
  · exact (hbefore ds hds).le
  · rcases List.mem_cons.mp hds with rfl | hds
    · exact le_rfl
    · exact hafter ds hds

/-- **The first of the cheapest is kept.** -/
theorem exists_isFirstCheapest {leaves : List (List Candidate)} (hne : leaves ≠ []) :
    ∃ cs, IsFirstCheapest leaves cs
      ∧ leaves.foldl (keepBetter Pick.nothing) none = some (Pick.nothing.addAll cs) := by
  induction leaves using List.reverseRecOn with
  | nil => exact absurd rfl hne
  | append_singleton leaves last ih =>
    rw [List.foldl_append, List.foldl_cons, List.foldl_nil]
    by_cases hnil : leaves = []
    · rw [hnil]
      exact ⟨last, ⟨[], [], rfl, nofun, nofun⟩, rfl⟩
    · obtain ⟨cs, hcs, hfold⟩ := ih hnil
      rw [hfold, keepBetter, Pick.better]
      split
      · next h =>
        -- the last leaf is cheaper than the best before it
        refine ⟨last, ⟨leaves, [], rfl, fun ds hds => ?_, nofun⟩, rfl⟩
        exact (cheaper_iff.mp h).trans_le (hcs.cost_le hds)
      · next h =>
        obtain ⟨before, after, rfl, hbefore, hafter⟩ := hcs
        refine ⟨cs, ⟨before, after ++ [last], by simp, hbefore, fun ds hds => ?_⟩, rfl⟩
        rcases List.mem_append.mp hds with hds | hds
        · exact hafter ds hds
        · rw [List.mem_singleton.mp hds]
          exact not_lt.mp (mt cheaper_iff.mpr h)

/-! ## The leaves are covers -/

/-- The table of minterms and candidates. -/
def chart (cands : List Candidate) (minterms : List Nat) : List Row :=
  minterms.map (Row.of cands)

theorem without_chart (c : Candidate) (cands : List Candidate) (minterms : List Nat) :
    without c (chart cands minterms)
      = chart cands (minterms.filter fun m => !c.covers m) := by
  unfold without chart
  rw [List.filter_map]
  rfl

theorem narrowest_mem (row : Row) (rows : List Row) : narrowest row rows ∈ row :: rows := by
  induction rows generalizing row with
  | nil => exact List.mem_singleton.mpr rfl
  | cons other rest ih =>
    rw [narrowest]
    split
    · exact List.mem_cons_of_mem _ (ih other)
    · rcases List.mem_cons.mp (ih row) with h | h
      · rw [h]; exact List.mem_cons_self
      · exact List.mem_cons_of_mem _ (List.mem_cons_of_mem _ h)

/-- The narrowest row of a table is that of one of the minterms. -/
theorem exists_narrowest_eq (cands : List Candidate) (m₀ : Nat) (minterms : List Nat) :
    ∃ m ∈ m₀ :: minterms,
      narrowest (Row.of cands m₀) (chart cands minterms) = Row.of cands m := by
  have hmem := narrowest_mem (Row.of cands m₀) (chart cands minterms)
  obtain ⟨m, hm, hrow⟩ := List.mem_map.mp (show _ ∈ chart cands (m₀ :: minterms) from hmem)
  exact ⟨m, hm, hrow.symm⟩

/-- **The first step to a leaf**: a candidate that has one of the minterms
is chosen, and the search goes on with the minterms that it does not
have. -/
theorem mem_branches_succ (fuel m₀ : Nat) (cands : List Candidate) (minterms : List Nat) :
    ∃ m ∈ m₀ :: minterms, ∀ cs : List Candidate,
      cs ∈ branches (fuel + 1) (chart cands (m₀ :: minterms))
        ↔ ∃ c ∈ cands, c.covers m = true ∧ ∃ rest, cs = c :: rest
            ∧ rest ∈ branches fuel
                (chart cands ((m₀ :: minterms).filter fun k => !c.covers k)) := by
  obtain ⟨m, hm, hrow⟩ := exists_narrowest_eq cands m₀ minterms
  refine ⟨m, hm, fun cs => ?_⟩
  rw [show chart cands (m₀ :: minterms) = Row.of cands m₀ :: chart cands minterms from rfl,
    branches, hrow, List.mem_flatMap]
  simp only [Row.of, List.mem_filter, List.mem_map]
  constructor
  · rintro ⟨c, ⟨hc, hcm⟩, rest, hrest, rfl⟩
    exact ⟨c, hc, hcm, rest, rfl, without_chart c cands (m₀ :: minterms) ▸ hrest⟩
  · rintro ⟨c, hc, hcm, rest, rfl, hrest⟩
    exact ⟨c, ⟨hc, hcm⟩, rest, (without_chart c cands (m₀ :: minterms)).symm ▸ hrest, rfl⟩

/-- A candidate that has a minterm leaves fewer of them. -/
theorem length_filter_lt {minterms : List Nat} {c : Candidate} {m : Nat} (hm : m ∈ minterms)
    (hcm : c.covers m = true) : (minterms.filter fun k => !c.covers k).length < minterms.length :=
  List.length_filter_lt_length_iff_exists.mpr ⟨m, hm, by simpa using hcm⟩

/-- **A cover without waste**: candidates that have all the minterms, each
of which has one, and no two of which are the same. -/
structure IsCover (cands : List Candidate) (minterms : List Nat) (cs : List Candidate) : Prop where
  /-- All are candidates. -/
  subset : cs ⊆ cands
  /-- Each minterm is covered. -/
  covers : ∀ m ∈ minterms, ∃ c ∈ cs, c.covers m = true
  /-- Each choice covers a minterm. -/
  useful : ∀ c ∈ cs, ∃ m ∈ minterms, c.covers m = true
  /-- No choice is made twice. -/
  nodup : cs.Nodup

/-- **Every leaf is a cover.** -/
theorem isCover_of_mem_branches {fuel : Nat} {cands : List Candidate} {minterms : List Nat}
    {cs : List Candidate} (h : cs ∈ branches fuel (chart cands minterms)) :
    IsCover cands minterms cs := by
  induction fuel generalizing minterms cs with
  | zero =>
    cases minterms with
    | nil =>
      rw [List.mem_singleton.mp h]
      exact ⟨List.nil_subset _, nofun, nofun, List.nodup_nil⟩
    | cons m₀ minterms => cases h
  | succ fuel ih =>
    cases minterms with
    | nil =>
      rw [List.mem_singleton.mp h]
      exact ⟨List.nil_subset _, nofun, nofun, List.nodup_nil⟩
    | cons m₀ minterms =>
      obtain ⟨m, hm, hleaf⟩ := mem_branches_succ fuel m₀ cands minterms
      obtain ⟨c, hc, hcm, rest, rfl, hrest⟩ := (hleaf cs).mp h
      have hcover := ih hrest
      refine ⟨List.cons_subset.mpr ⟨hc, hcover.subset⟩, fun k hk => ?_, fun d hd => ?_,
        List.nodup_cons.mpr ⟨fun hcr => ?_, hcover.nodup⟩⟩
      · by_cases hck : c.covers k = true
        · exact ⟨c, List.mem_cons_self, hck⟩
        · obtain ⟨d, hd, hdk⟩ := hcover.covers k (List.mem_filter.mpr ⟨hk, by simpa using hck⟩)
          exact ⟨d, List.mem_cons_of_mem c hd, hdk⟩
      · rcases List.mem_cons.mp hd with rfl | hd
        · exact ⟨m, hm, hcm⟩
        · obtain ⟨k, hk, hdk⟩ := hcover.useful d hd
          exact ⟨k, (List.mem_filter.mp hk).1, hdk⟩
      · -- what is chosen later has a minterm that `c` does not have
        obtain ⟨k, hk, hck⟩ := hcover.useful c hcr
        simp [hck] at hk

/-- **A leaf below every cover**: if candidates from a set cover all the
minterms, some leaf takes its candidates from this set. -/
theorem exists_branch_subset {fuel : Nat} {cands : List Candidate} {minterms : List Nat}
    (hfuel : minterms.length ≤ fuel) (P : Candidate → Prop)
    (hP : ∀ m ∈ minterms, ∃ c ∈ cands, P c ∧ c.covers m = true) :
    ∃ cs ∈ branches fuel (chart cands minterms), ∀ c ∈ cs, P c := by
  induction fuel generalizing minterms with
  | zero =>
    rw [List.length_eq_zero_iff.mp (Nat.le_zero.mp hfuel)]
    exact ⟨[], List.mem_singleton.mpr rfl, nofun⟩
  | succ fuel ih =>
    cases minterms with
    | nil => exact ⟨[], List.mem_singleton.mpr rfl, nofun⟩
    | cons m₀ minterms =>
      obtain ⟨m, hm, hleaf⟩ := mem_branches_succ fuel m₀ cands minterms
      obtain ⟨c, hc, hPc, hcm⟩ := hP m hm
      have hshort := length_filter_lt hm hcm
      obtain ⟨rest, hrest, hPrest⟩ := ih (Nat.lt_succ_iff.mp (hshort.trans_le hfuel))
        fun k hk => hP k (List.mem_filter.mp hk).1
      refine ⟨c :: rest, (hleaf _).mpr ⟨c, hc, hcm, rest, rfl, hrest⟩, fun d hd => ?_⟩
      rcases List.mem_cons.mp hd with rfl | hd
      · exact hPc
      · exact hPrest d hd

/-! ## Choices by their places -/

/-- The prime at a place has a minterm. -/
def Covers (primes : List Implicant) (index minterm : Nat) : Prop :=
  ∃ i, primes[index]? = some i ∧ i.covers minterm = true

/-- The number of literals of the prime at a place. -/
def literalsAt (primes : List Implicant) (index : Nat) : Nat :=
  (primes[index]?.map Implicant.literalCount).getD 0

/-- **The cost of a set of places**, of which the number of them counts
more. -/
def cost (primes : List Implicant) (indices : Finset ℕ) : ℕ ×ₗ ℕ :=
  toLex (indices.card, ∑ index ∈ indices, literalsAt primes index)

theorem mem_candidatesAt {primes : List Implicant} {indices : List Nat} {c : Candidate} :
    c ∈ candidatesAt primes indices
      ↔ c.index ∈ indices ∧ primes[c.index]? = some c.prime := by
  simp only [candidatesAt, List.mem_filterMap, Option.map_eq_some_iff]
  constructor
  · rintro ⟨index, hi, prime, hp, rfl⟩
    exact ⟨hi, hp⟩
  · rintro ⟨hi, hp⟩
    exact ⟨c.index, hi, c.prime, hp, rfl⟩

variable {primes : List Implicant} {indices : List Nat} {cs : List Candidate}

/-- A candidate has what the prime at its place has. -/
theorem covers_index_iff {c : Candidate} (hc : c ∈ candidatesAt primes indices) {m : Nat} :
    Covers primes c.index m ↔ c.covers m = true := by
  rw [Covers, (mem_candidatesAt.mp hc).2]
  simp only [Option.some.injEq, exists_eq_left']
  rfl

/-- Candidates are known by their places. -/
theorem eq_of_index_eq {c d : Candidate} (hc : c ∈ candidatesAt primes indices)
    (hd : d ∈ candidatesAt primes indices) (hcd : c.index = d.index) : c = d := by
  have hcp := (mem_candidatesAt.mp hc).2
  have hdp := (mem_candidatesAt.mp hd).2
  rw [hcd, hdp, Option.some.injEq] at hcp
  cases c; cases d
  simp_all

theorem nodup_map_index (hsub : cs ⊆ candidatesAt primes indices) (hn : cs.Nodup) :
    (cs.map Candidate.index).Nodup :=
  hn.map_on fun _ hc _ hd => eq_of_index_eq (hsub hc) (hsub hd)

theorem map_literalsAt (hsub : cs ⊆ candidatesAt primes indices) :
    (cs.map fun c => c.prime.literalCount) = (cs.map Candidate.index).map (literalsAt primes) := by
  rw [List.map_map]
  refine List.map_congr_left fun c hc => ?_
  rw [Function.comp_apply, literalsAt, (mem_candidatesAt.mp (hsub hc)).2]
  rfl

/-- The cost of a choice from nothing is that of the set of its places. -/
theorem cost_addAll_nothing (hsub : cs ⊆ candidatesAt primes indices) (hn : cs.Nodup) :
    (Pick.nothing.addAll cs).cost = cost primes (cs.map Candidate.index).toFinset := by
  have hnodup := nodup_map_index hsub hn
  unfold Pick.cost cost
  rw [Pick.indices_addAll, Pick.literals_addAll, map_literalsAt hsub,
    List.toFinset_card_of_nodup hnodup, List.sum_toFinset _ hnodup]
  simp [Pick.nothing]

/-- A smaller set costs less. -/
theorem cost_mono {X Y : Finset ℕ} (h : X ⊆ Y) : cost primes X ≤ cost primes Y := by
  unfold cost
  rw [Prod.Lex.toLex_le_toLex]
  have hcard := Finset.card_le_card h
  have hsum := Finset.sum_le_sum_of_subset (f := literalsAt primes) h
  omega

/-! ## What the search finds -/

/-- **The covers that the search comes to**, in its order, if it leaves out
nothing. -/
def foundCovers (primes : List Implicant) (indices minterms : List Nat) :
    List (List Candidate) :=
  branches minterms.length (chart (candidatesAt primes indices) minterms)

variable {minterms : List Nat}

theorem exactCover_eq_foldl (primes : List Implicant) (indices minterms : List Nat) :
    exactCover primes indices minterms
      = (((foundCovers primes indices minterms).foldl (keepBetter Pick.nothing) none).map
          Pick.indices).getD [] := by
  rw [exactCover, search_eq_foldl, List.length_map]
  rfl

theorem isCover_of_mem_foundCovers (h : cs ∈ foundCovers primes indices minterms) :
    IsCover (candidatesAt primes indices) minterms cs :=
  isCover_of_mem_branches h

/-- **A cover is found below every set** of the places that covers the
minterms. -/
theorem exists_found_subset {X : Finset ℕ}
    (hX : ∀ m ∈ minterms, ∃ k ∈ X, k ∈ indices ∧ Covers primes k m) :
    ∃ cs ∈ foundCovers primes indices minterms, ∀ c ∈ cs, c.index ∈ X := by
  refine exists_branch_subset le_rfl (fun c => c.index ∈ X) fun m hm => ?_
  obtain ⟨k, hkX, hk, i, hi, him⟩ := hX m hm
  exact ⟨⟨k, i⟩, mem_candidatesAt.mpr ⟨hk, hi⟩, hkX, him⟩

/-- Where a minterm has no prime at the places, the search finds nothing at
all. -/
theorem exactCover_eq_nil (h : ∃ m ∈ minterms, ∀ k ∈ indices, ¬Covers primes k m) :
    exactCover primes indices minterms = [] := by
  obtain ⟨m, hm, hnone⟩ := h
  have hempty : foundCovers primes indices minterms = [] := by
    refine List.eq_nil_iff_forall_not_mem.mpr fun cs hcs => ?_
    have hcover := isCover_of_mem_foundCovers hcs
    obtain ⟨c, hc, hcm⟩ := hcover.covers m hm
    have hcand := hcover.subset hc
    exact hnone c.index (mem_candidatesAt.mp hcand).1 ((covers_index_iff hcand).mpr hcm)
  rw [exactCover_eq_foldl, hempty]
  rfl

/-- **The search answers with the first of the cheapest covers** that it
comes to, if each minterm has a prime at one of the places. -/
theorem exists_isFirstCheapest_exactCover (h : ∀ m ∈ minterms, ∃ k ∈ indices, Covers primes k m) :
    ∃ cs, IsFirstCheapest (foundCovers primes indices minterms) cs
      ∧ exactCover primes indices minterms = cs.map Candidate.index := by
  have hX : ∀ m ∈ minterms, ∃ k ∈ indices.toFinset, k ∈ indices ∧ Covers primes k m := by
    intro m hm
    obtain ⟨k, hk, hkm⟩ := h m hm
    exact ⟨k, List.mem_toFinset.mpr hk, hk, hkm⟩
  obtain ⟨ds, hds, -⟩ := exists_found_subset hX
  obtain ⟨cs, hcs, hfold⟩ := exists_isFirstCheapest (List.ne_nil_of_mem hds)
  refine ⟨cs, hcs, ?_⟩
  rw [exactCover_eq_foldl, hfold, Option.map_some, Option.getD_some, Pick.indices_addAll]
  rfl

/-- The first of the cheapest covers costs no more than any set of the
places that covers the minterms. -/
theorem IsFirstCheapest.cost_le_of_covers
    (hcs : IsFirstCheapest (foundCovers primes indices minterms) cs) {X : Finset ℕ}
    (hX : ∀ m ∈ minterms, ∃ k ∈ X, k ∈ indices ∧ Covers primes k m) :
    (Pick.nothing.addAll cs).cost ≤ cost primes X := by
  obtain ⟨ds, hds, hdX⟩ := exists_found_subset hX
  have hdcover := isCover_of_mem_foundCovers hds
  refine (hcs.cost_le hds).trans ?_
  rw [cost_addAll_nothing hdcover.subset hdcover.nodup]
  refine cost_mono fun k hk => ?_
  obtain ⟨d, hd, rfl⟩ := List.mem_map.mp (List.mem_toFinset.mp hk)
  exact hdX d hd

/-- The search answers with a cover that it comes to, or with nothing. -/
theorem exactCover_eq_nil_or (primes : List Implicant) (indices minterms : List Nat) :
    exactCover primes indices minterms = []
      ∨ ∃ cs ∈ foundCovers primes indices minterms,
          exactCover primes indices minterms = cs.map Candidate.index := by
  by_cases h : ∀ m ∈ minterms, ∃ k ∈ indices, Covers primes k m
  · obtain ⟨cs, hcs, heq⟩ := exists_isFirstCheapest_exactCover h
    exact Or.inr ⟨cs, hcs.mem, heq⟩
  · push Not at h
    exact Or.inl (exactCover_eq_nil h)

theorem nodup_exactCover (primes : List Implicant) (indices minterms : List Nat) :
    (exactCover primes indices minterms).Nodup := by
  rcases exactCover_eq_nil_or primes indices minterms with h | ⟨cs, hcs, h⟩
  · rw [h]
    exact List.nodup_nil
  · have hcover := isCover_of_mem_foundCovers hcs
    rw [h]
    exact nodup_map_index hcover.subset hcover.nodup

theorem of_mem_exactCover {k : Nat} (hk : k ∈ exactCover primes indices minterms) :
    k ∈ indices ∧ ∃ m ∈ minterms, Covers primes k m := by
  rcases exactCover_eq_nil_or primes indices minterms with h | ⟨cs, hcs, h⟩
  · rw [h] at hk
    cases hk
  · have hcover := isCover_of_mem_foundCovers hcs
    rw [h] at hk
    obtain ⟨c, hc, rfl⟩ := List.mem_map.mp hk
    have hcand := hcover.subset hc
    obtain ⟨m, hm, hcm⟩ := hcover.useful c hc
    exact ⟨(mem_candidatesAt.mp hcand).1, m, hm, (covers_index_iff hcand).mpr hcm⟩

/-- **The search finds a cover** if each minterm has a prime at one of the
places. -/
theorem exactCover_covers (h : ∀ m ∈ minterms, ∃ k ∈ indices, Covers primes k m) {m : Nat}
    (hm : m ∈ minterms) : ∃ k ∈ exactCover primes indices minterms, Covers primes k m := by
  obtain ⟨cs, hcs, heq⟩ := exists_isFirstCheapest_exactCover h
  have hcover := isCover_of_mem_foundCovers hcs.mem
  obtain ⟨c, hc, hcm⟩ := hcover.covers m hm
  rw [heq]
  exact ⟨c.index, List.mem_map_of_mem hc, (covers_index_iff (hcover.subset hc)).mpr hcm⟩

/-- **The cover is a cheapest one**: no set of the places that covers the
minterms is cheaper. -/
theorem exactCover_least {X : Finset ℕ}
    (hX : ∀ m ∈ minterms, ∃ k ∈ X, k ∈ indices ∧ Covers primes k m) :
    cost primes (exactCover primes indices minterms).toFinset ≤ cost primes X := by
  obtain ⟨cs, hcs, heq⟩ := exists_isFirstCheapest_exactCover fun m hm => by
    obtain ⟨k, -, hk, hkm⟩ := hX m hm
    exact ⟨k, hk, hkm⟩
  have hcover := isCover_of_mem_foundCovers hcs.mem
  rw [heq, ← cost_addAll_nothing hcover.subset hcover.nodup]
  exact hcs.cost_le_of_covers hX

end Karnaugh.Cover
