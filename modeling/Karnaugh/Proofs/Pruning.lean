import Karnaugh.Proofs.CoverSearch

/-!
# Pruning changes nothing

`Cover.search` gives a branch up when even one more prime would make it no
better than the best cover so far. This is a shortcut, and a shortcut may
change more than the time that is needed: among covers that cost the same,
it may return another one. It does not.

`Cover.plainSearch` is the same search without the bound. It goes on as long
as minterms are left and has no other reason to stop, so it is a recursion
on their number and needs no count of steps. Both searches, begun with the
same choice and the same best cover, end with the same best cover
(`Cover.search_eq_plainSearch`): a branch that is given up could at most
equal the best, and the best is only replaced by what is *cheaper*.
-/

namespace Karnaugh.Cover

/-- A candidate from the narrowest row leaves fewer minterms. -/
theorem length_filter_lt_of_mem_options {cands : List Candidate} {m₀ : Nat} {minterms : List Nat}
    {c : Candidate} (hc : c ∈ (narrowest (Row.of cands m₀) (chart cands minterms)).options) :
    ((m₀ :: minterms).filter fun k => !c.covers k).length < (m₀ :: minterms).length := by
  obtain ⟨m, hm, hrow⟩ := exists_narrowest_eq cands m₀ minterms
  rw [hrow] at hc
  exact length_filter_lt hm (List.mem_filter.mp hc).2

/-- **The search that tries every branch**: as `search`, but no branch is
given up before its minterms are covered. -/
def plainSearch (cands : List Candidate) : List Nat → Pick → Option Pick → Option Pick
  | [], p, best => some (Pick.better best p)
  | m :: minterms, p, best =>
    (narrowest (Row.of cands m) (chart cands minterms)).options.attach.foldl
      (fun best c =>
        plainSearch cands ((m :: minterms).filter fun k => !c.1.covers k) (p.add c.1) best) best
termination_by minterms => minterms.length
decreasing_by exact length_filter_lt_of_mem_options c.2

/-- The cover that the search without the bound finds, and nothing if there
is none. -/
def plainCover (primes : List Implicant) (indices minterms : List Nat) : List Nat :=
  ((plainSearch (candidatesAt primes indices) minterms Pick.nothing none).map
    Pick.indices).getD []

variable {cands : List Candidate}

theorem plainSearch_cons (m : Nat) (minterms : List Nat) (p : Pick) (best : Option Pick) :
    plainSearch cands (m :: minterms) p best
      = (narrowest (Row.of cands m) (chart cands minterms)).options.foldl
          (fun best c =>
            plainSearch cands ((m :: minterms).filter fun k => !c.covers k) (p.add c) best)
          best := by
  rw [plainSearch]
  exact List.foldl_attach (f := fun best c =>
    plainSearch cands ((m :: minterms).filter fun k => !c.covers k) (p.add c) best)

/-- **The search without the bound compares all leaves** in their order. -/
theorem plainSearch_eq_foldl {fuel : Nat} {minterms : List Nat} (hfuel : minterms.length ≤ fuel)
    (p : Pick) (best : Option Pick) :
    plainSearch cands minterms p best
      = (branches fuel (chart cands minterms)).foldl (keepBetter p) best := by
  induction fuel generalizing minterms p best with
  | zero =>
    rw [List.length_eq_zero_iff.mp (Nat.le_zero.mp hfuel), plainSearch]
    rfl
  | succ fuel ih =>
    cases minterms with
    | nil =>
      rw [plainSearch]
      rfl
    | cons m minterms =>
      rw [plainSearch_cons,
        show chart cands (m :: minterms) = Row.of cands m :: chart cands minterms from rfl,
        branches, List.foldl_flatMap]
      refine List.foldl_ext _ _ _ fun b c hc => ?_
      have hshort := length_filter_lt_of_mem_options hc
      rw [ih (Nat.lt_succ_iff.mp (hshort.trans_le hfuel)), List.foldl_map,
        ← without_chart c cands (m :: minterms)]
      rfl

/-- **At every node the two searches agree**: whatever has been chosen on
the way there, and whatever is the best so far. -/
theorem search_eq_plainSearch {fuel : Nat} {minterms : List Nat} (hfuel : minterms.length ≤ fuel)
    (p : Pick) (best : Option Pick) :
    search fuel (chart cands minterms) p best = plainSearch cands minterms p best := by
  rw [search_eq_foldl, plainSearch_eq_foldl hfuel]

/-- **The search with the bound chooses what the search without it
chooses**, the same places in the same order. The search without it compares
the covers that it comes to one after the other. Where each minterm has a
prime at one of the places, the first of the cheapest of these is chosen, and
no set of the places that covers the minterms is cheaper. Where some minterm
has none, nothing is chosen. -/
theorem exactCover_eq_plainCover (primes : List Implicant) (indices minterms : List Nat) :
    exactCover primes indices minterms = plainCover primes indices minterms
      ∧ (∀ p best, plainSearch (candidatesAt primes indices) minterms p best
          = (foundCovers primes indices minterms).foldl (keepBetter p) best)
      ∧ ((∀ m ∈ minterms, ∃ k ∈ indices, Covers primes k m) →
          ∃ cs, exactCover primes indices minterms = cs.map Candidate.index
            ∧ IsCover (candidatesAt primes indices) minterms cs
            ∧ IsFirstCheapest (foundCovers primes indices minterms) cs
            ∧ ∀ X : Finset ℕ, (∀ m ∈ minterms, ∃ k ∈ X, k ∈ indices ∧ Covers primes k m) →
                (Pick.nothing.addAll cs).cost ≤ cost primes X)
      ∧ ((∃ m ∈ minterms, ∀ k ∈ indices, ¬Covers primes k m) →
          exactCover primes indices minterms = []) := by
  refine ⟨?_, plainSearch_eq_foldl le_rfl, fun h => ?_, exactCover_eq_nil⟩
  · rw [plainCover, ← search_eq_plainSearch le_rfl, exactCover, List.length_map]
    rfl
  · obtain ⟨cs, hcs, heq⟩ := exists_isFirstCheapest_exactCover h
    exact ⟨cs, heq, isCover_of_mem_foundCovers hcs.mem, hcs, fun X => hcs.cost_le_of_covers⟩

end Karnaugh.Cover
