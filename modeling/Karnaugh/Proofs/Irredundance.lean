import Karnaugh.Proofs.Minimization

/-!
# Terms that could be left out

A sum of products is irredundant if each of its terms has a minterm of its
own, so that none can be left out. The answer of the minimizer is
irredundant when its cover was searched for exactly: leaving out a term that
has no minterm of its own would give a cheaper cover.

Where the rest is covered greedily, the answer need not be irredundant, and
with the usual limit it is not always (`exists_minimize_redundant`). Each
term is *taken* for a minterm that is new, but those that are taken later
may have all of its minterms together, and greed does not look back. What
remains true is that the essential primes have minterms of their own, even
among all primes, and that the others can be ordered so that each of them
has a minterm which none before it has.
-/

namespace Karnaugh

open Implicant Cover

/-- **A minterm of its own**: the term has one of the minterms that no other
of the given terms has. -/
def HasOwn (minterms : List Nat) (terms : List Implicant) (i : Implicant) : Prop :=
  ∃ m ∈ minterms, m ∈ i.minterms ∧ ∀ j ∈ terms, m ∈ j.minterms → j = i

/-- **A new minterm**: the term has one of the minterms that none of the
given terms has. -/
def HasNew (minterms : List Nat) (before : List Implicant) (i : Implicant) : Prop :=
  ∃ m ∈ minterms, m ∈ i.minterms ∧ ∀ j ∈ before, m ∉ j.minterms

/-! ## Chosen places -/

namespace Cover

variable {primes : List Implicant} {minterms : List Nat} {exactLimit : Nat}

/-- **An exact selection can spare no prime**: without one that has no
minterm of its own, it would be a cheaper cover. -/
theorem exists_own_of_exact (h : ∀ m ∈ minterms, ∃ k, Covers primes k m)
    (hexact : (selectCover primes minterms exactLimit).exact = true) {k : Nat}
    (hk : k ∈ (selectCover primes minterms exactLimit).chosen) :
    ∃ m ∈ minterms, Covers primes k m
      ∧ ∀ j ∈ (selectCover primes minterms exactLimit).chosen, Covers primes j m → j = k := by
  by_contra hnone
  push Not at hnone
  set chosen := (selectCover primes minterms exactLimit).chosen with hchosen
  have hrest : ∀ m ∈ minterms, ∃ j ∈ chosen.toFinset.erase k, Covers primes j m := by
    intro m hm
    obtain ⟨j, hj, hjm⟩ := (selectCover_covers h exactLimit).1 m hm
    by_cases hjk : j = k
    · obtain ⟨j', hj', hjm', hne⟩ := hnone m hm (hjk ▸ hjm)
      exact ⟨j', Finset.mem_erase.mpr ⟨hne, List.mem_toFinset.mpr hj'⟩, hjm'⟩
    · exact ⟨j, Finset.mem_erase.mpr ⟨hjk, List.mem_toFinset.mpr hj⟩, hjm⟩
  have hleast := selectCover_least hexact hrest
  have hcard := Finset.card_erase_lt_of_mem (List.mem_toFinset.mpr hk)
  rw [cost, cost, Prod.Lex.toLex_le_toLex, ← hchosen] at hleast
  dsimp only at hleast
  omega

/-- **Each extra prime has a new minterm**, in the order in which they are
chosen: one that neither an essential prime nor an extra one chosen before
has. -/
theorem exists_new_of_extra (h : ∀ m ∈ minterms, ∃ k, Covers primes k m) {before after : List Nat}
    {k : Nat} (hsplit : extra primes minterms exactLimit = before ++ k :: after) :
    ∃ m ∈ minterms, Covers primes k m
      ∧ ∀ j ∈ essentials primes minterms ++ before, ¬Covers primes j m := by
  rcases hexact : (selectCover primes minterms exactLimit).exact
  · rw [extra_of_not_exact hexact] at hsplit
    obtain ⟨-, m, hm, hkm, hnew⟩ := exists_new_of_greedyCover hsplit
    obtain ⟨hmem, hleft⟩ := mem_leftOver.mp hm
    exact ⟨m, hmem, hkm, fun j hj => (List.mem_append.mp hj).elim (hleft j) (hnew j)⟩
  · -- what an exact selection has of its own is new as well
    have hperm := chosen_perm primes minterms exactLimit
    rw [hsplit, ← List.append_assoc] at hperm
    have hnodup := hperm.nodup_iff.mp ((pairwise_chosen _ _ _).imp Nat.ne_of_lt)
    have hk := hperm.mem_iff.mpr (List.mem_append_right _ List.mem_cons_self)
    obtain ⟨m, hm, hkm, hown⟩ := exists_own_of_exact h hexact hk
    refine ⟨m, hm, hkm, fun j hj hjm => ?_⟩
    obtain rfl := hown j (hperm.mem_iff.mpr (List.mem_append_left _ hj)) hjm
    exact List.disjoint_of_nodup_append hnodup hj List.mem_cons_self

end Cover

/-! ## From places to terms -/

variable {primes : List Implicant} {minterms places : List Nat} {terms : List Implicant}

/-- A place has a minterm when the implicant there has it. -/
theorem covers_of_getElem? {k m : Nat} {i : Implicant} (hi : primes[k]? = some i)
    (hm : m ∈ i.minterms) : Covers primes k m :=
  ⟨i, hi, List.contains_iff_mem.mpr hm⟩

/-- **What a place has of its own, the term has** that stands there, among
terms that stand at the same places. -/
theorem hasOwn_of_place {P : Nat → Prop} (hterms : ∀ j ∈ terms, ∃ l, P l ∧ primes[l]? = some j)
    {k : Nat} {i : Implicant} (hi : primes[k]? = some i)
    (h : ∃ m ∈ minterms, Covers primes k m ∧ ∀ j, P j → Covers primes j m → j = k) :
    HasOwn minterms terms i := by
  obtain ⟨m, hm, ⟨i', hi', him⟩, hown⟩ := h
  obtain rfl := Option.some.inj (hi.symm.trans hi')
  refine ⟨m, hm, List.contains_iff_mem.mp him, fun j hj hjm => ?_⟩
  obtain ⟨l, hl, hlj⟩ := hterms j hj
  obtain rfl := hown l hl (covers_of_getElem? hlj hjm)
  exact Option.some.inj (hlj.symm.trans hi)

/-- The terms at places. -/
def termsAt (primes : List Implicant) (places : List Nat) : List Implicant :=
  places.filterMap (primes[·]?)

theorem mem_termsAt {i : Implicant} :
    i ∈ termsAt primes places ↔ ∃ k ∈ places, primes[k]? = some i :=
  List.mem_filterMap

theorem termsAt_append (primes : List Implicant) (places others : List Nat) :
    termsAt primes (places ++ others) = termsAt primes places ++ termsAt primes others :=
  List.filterMap_append

theorem length_termsAt (h : ∀ k ∈ places, ∃ i, primes[k]? = some i) :
    (termsAt primes places).length = places.length := by
  have hlength := congrArg List.length (map_literalCount_filterMap h)
  rwa [List.length_map, List.length_map] at hlength

/-- The terms before a term are those at the places before its place. -/
theorem exists_place_of_termsAt {before after : List Implicant} {i : Implicant}
    (h : termsAt primes places = before ++ i :: after) :
    ∃ early k late, places = early ++ k :: late ∧ primes[k]? = some i
      ∧ termsAt primes early = before := by
  obtain ⟨first, rest, rfl, hfirst, hrest⟩ := List.filterMap_eq_append_iff.mp h
  obtain ⟨skipped, k, late, rfl, hskipped, hk, -⟩ := List.filterMap_eq_cons_iff.mp hrest
  refine ⟨first ++ skipped, k, late, (List.append_assoc ..).symm, hk, ?_⟩
  rw [termsAt_append, termsAt, termsAt, hfirst, List.filterMap_eq_nil_iff.mpr hskipped,
    List.append_nil]

/-- **What is new at a place is new for the term** that stands there. -/
theorem hasNew_termsAt {k : Nat} {i : Implicant} (hi : primes[k]? = some i)
    (h : ∃ m ∈ minterms, Covers primes k m ∧ ∀ j ∈ places, ¬Covers primes j m) :
    HasNew minterms (termsAt primes places) i := by
  obtain ⟨m, hm, ⟨i', hi', him⟩, hnew⟩ := h
  obtain rfl := Option.some.inj (hi.symm.trans hi')
  refine ⟨m, hm, List.contains_iff_mem.mp him, fun j hj hjm => ?_⟩
  obtain ⟨l, hl, hlj⟩ := mem_termsAt.mp hj
  exact hnew l hl (covers_of_getElem? hlj hjm)

/-- The terms of a cover are those at the essential places and those at the
others. -/
theorem coverOf_chosen_perm (primes : List Implicant) (minterms : List Nat) (exactLimit : Nat) :
    (termsAt primes (essentials primes minterms)
        ++ termsAt primes (extra primes minterms exactLimit)).Perm
      (coverOf primes (selectCover primes minterms exactLimit).chosen) := by
  rw [← termsAt_append]
  exact ((chosen_perm primes minterms exactLimit).symm.filterMap _).trans
    (List.mergeSort_perm _ _).symm

/-! ## The answer -/

/-- **Which terms of an answer can be spared.** No term stands twice. When the
cover was searched for exactly, or there is nothing to cover, each term has a
minterm that no other term has. In any case as many terms as are counted as essential have
a minterm that no other prime has, and the rest can be ordered so that each
term has a minterm which neither these terms nor those before it have. -/
theorem minimize_irredundant (r : Request) (h : r.Valid) (exactLimit : Nat) :
    ∃ a, minimize exactLimit r = .ok a
      ∧ a.implicants.Nodup
      ∧ (a.statistics.exactCover = true ∨ r.minterms = []
          → ∀ i ∈ a.implicants, HasOwn r.minterms a.implicants i)
      ∧ ∃ essential rest : List Implicant, (essential ++ rest).Perm a.implicants
          ∧ essential.length = a.statistics.essentialCount
          ∧ (∀ i ∈ essential, HasOwn r.minterms a.primes i)
          ∧ ∀ before i after, rest = before ++ i :: after
              → HasNew r.minterms (essential ++ before) i := by
  obtain ⟨a, hok, hprimes, himplicants, -, hexact⟩ := minimize_spec h exactLimit
  have hcoverable : ∀ m ∈ ascending r.minterms, ∃ k, Covers a.primes k m :=
    fun m => h.toInRange.exists_covers hprimes
  have hplace : ∀ k ∈ essentials a.primes (ascending r.minterms),
      ∃ m ∈ r.minterms, ∀ j, Covers a.primes j m ↔ j = k := by
    intro k hk
    obtain ⟨m, hm, honly⟩ := mem_essentials.mp hk
    exact ⟨m, mem_ascending.mp hm, honly⟩
  refine ⟨a, hok, ?_, fun hflag i hi => ?_,
    termsAt a.primes (essentials a.primes (ascending r.minterms)),
    termsAt a.primes (extra a.primes (ascending r.minterms) exactLimit), ?_, ?_, fun i hi => ?_,
    fun before i after hsplit => ?_⟩
  · rw [himplicants]
    exact nodup_of_pairwise_displayOrder (pairwise_coverOf (h.toInRange.nodup_primes hprimes)
      (fun i hi => ((h.toInRange.mem_primes hprimes).mp hi).1)
      ((pairwise_chosen _ _ _).imp Nat.ne_of_lt))
  · -- an exact cover
    rw [himplicants] at hi ⊢
    obtain ⟨k, hk, hki⟩ := mem_coverOf.mp hi
    obtain ⟨m, hm, hkm, hown⟩ := exists_own_of_exact hcoverable (hexact hflag) hk
    exact hasOwn_of_place (fun j hj => mem_coverOf.mp hj) hki ⟨m, mem_ascending.mp hm, hkm, hown⟩
  · rw [himplicants]
    exact coverOf_chosen_perm _ _ _
  · rw [essentialCount_of_minimize h hok]
    refine length_termsAt fun k hk => ?_
    obtain ⟨m, -, honly⟩ := hplace k hk
    obtain ⟨i, hi, -⟩ := (honly k).mpr rfl
    exact ⟨i, hi⟩
  · -- an essential prime
    obtain ⟨k, hk, hki⟩ := mem_termsAt.mp hi
    obtain ⟨m, hm, honly⟩ := hplace k hk
    refine hasOwn_of_place (P := fun _ => True) (fun j hj => ?_) hki
      ⟨m, hm, (honly k).mpr rfl, fun j _ => (honly j).mp⟩
    obtain ⟨l, hl⟩ := List.getElem?_of_mem hj
    exact ⟨l, trivial, hl⟩
  · -- another term
    obtain ⟨early, k, late, hplaces, hki, rfl⟩ := exists_place_of_termsAt hsplit
    obtain ⟨m, hm, hkm, hnew⟩ := exists_new_of_extra hcoverable hplaces
    rw [← termsAt_append]
    exact hasNew_termsAt hki ⟨m, mem_ascending.mp hm, hkm, hnew⟩

/-- A request with two essential primes, in which a third prime looks as good
as those that cover the rest best. -/
def luringRequest : Request := ⟨4, [14, 0, 1, 2, 7, 9, 10, 15, 0], []⟩

/-- The theorem at this request, with the usual limit, where the cover is
searched for exactly, and with none. -/
theorem minimize_irredundant_luringRequest :
    luringRequest.Valid
      ∧ (∃ a, minimize standardExactLimit luringRequest = .ok a
        ∧ ∀ i ∈ a.implicants, HasOwn luringRequest.minterms a.implicants i)
      ∧ ∃ a, minimize 0 luringRequest = .ok a
        ∧ a.implicants.Nodup
        ∧ ∃ essential rest : List Implicant, (essential ++ rest).Perm a.implicants
          ∧ essential.length = 2
          ∧ (∀ i ∈ essential, HasOwn luringRequest.minterms a.primes i)
          ∧ ∀ before i after, rest = before ++ i :: after
              → HasNew luringRequest.minterms (essential ++ before) i := by
  have h : luringRequest.Valid := ⟨⟨by decide, by decide, by decide⟩, by decide⟩
  obtain ⟨a, ha, -, hown, -⟩ := minimize_irredundant _ h standardExactLimit
  obtain ⟨b, hb, hnodup, -, essential, rest, hperm, hlength, hessential, hnew⟩ :=
    minimize_irredundant _ h 0
  have hexact : (minimize standardExactLimit luringRequest).map
      (fun a => a.statistics.exactCover) = .ok true := by cbv
  have hcount : (minimize 0 luringRequest).map
      (fun a => a.statistics.essentialCount) = .ok 2 := by cbv
  rw [ha] at hexact
  rw [hb] at hcount
  exact ⟨h, ⟨a, ha, hown (Or.inl (Except.ok.inj hexact))⟩, b, hb, hnodup, essential, rest, hperm,
    hlength.trans (Except.ok.inj hcount), hessential, hnew⟩

/-- A request whose primes make cycles, so that none of them is essential and
all sixteen are to be chosen from. -/
def cyclicRequest : Request := ⟨5, [9, 11, 12, 13, 14, 17, 19, 20, 22, 23, 24, 25], [10, 28]⟩

/-- **With the usual limit an answer can have a term to spare**: the term of
the minterms 9 and 25 has none of its own. -/
theorem exists_minimize_redundant :
    cyclicRequest.Valid ∧ ∃ a, minimize standardExactLimit cyclicRequest = .ok a
      ∧ ∃ i ∈ a.implicants, i.minterms = [9, 25]
        ∧ ¬HasOwn cyclicRequest.minterms a.implicants i := by
  have h : cyclicRequest.Valid := ⟨⟨by decide, by decide, by decide⟩, by decide⟩
  obtain ⟨a, ha, -⟩ := minimize_spec h standardExactLimit
  have hterms : (minimize standardExactLimit cyclicRequest).map
      (fun a => a.implicants.map Implicant.minterms)
        = .ok [[9, 25], [9, 13], [9, 11], [12, 14], [17, 25], [19, 23], [20, 22], [24, 28]] := by
    cbv
  rw [ha] at hterms
  have hterm : ∀ ms ∈ [[9, 25], [9, 13], [9, 11], [12, 14], [17, 25], [19, 23], [20, 22], [24, 28]],
      ∃ i ∈ a.implicants, i.minterms = ms := by
    rw [← Except.ok.inj hterms]
    exact fun ms => List.mem_map.mp
  obtain ⟨i, hi, him⟩ := hterm [9, 25] (by decide)
  obtain ⟨j, hj, hjm⟩ := hterm [9, 13] (by decide)
  obtain ⟨l, hl, hlm⟩ := hterm [17, 25] (by decide)
  refine ⟨h, a, ha, i, hi, him, ?_⟩
  rintro ⟨m, -, hm, hown⟩
  rw [him, List.mem_pair] at hm
  rcases hm with rfl | rfl
  · obtain rfl := hown j hj (by rw [hjm]; decide)
    exact absurd (him.symm.trans hjm) (by decide)
  · obtain rfl := hown l hl (by rw [hlm]; decide)
    exact absurd (him.symm.trans hlm) (by decide)

end Karnaugh
