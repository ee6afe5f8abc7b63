import Karnaugh.Minimize.Primes
import Karnaugh.Proofs.DisplayOrder

/-!
# The prime implicants of a request

`primeImplicants` combines implicants in rounds until nothing combines any
more. The rounds start here, with an implicant
for each minterm that may be covered: as a pattern that fixes all variables
covers one minterm, this is the round with as many literals as variables
(`firstRound_isRound`). What is found is then filtered and sorted, and the
result is told without the rounds: the prime implicants of the set of
minterms that may be covered, of those that cover a minterm that must be
(`primeImplicants_spec`).
-/

namespace Karnaugh

open Pattern Implicant

/-- The minterms that a term may cover. -/
def Request.allowed (r : Request) : List Nat := r.minterms ++ r.dontCares

/-- **A request in range**: it has a number of variables that an expression
can have, and its minterms are inputs. Nothing is said of their order, and
a minterm may be in both lists. -/
structure Request.InRange (r : Request) : Prop where
  /-- There are at least two variables. -/
  two_le : minVariables ≤ r.numVars
  /-- There are at most six. -/
  le_six : r.numVars ≤ maxVariables
  /-- All minterms are inputs. -/
  lt_inputCount : ∀ m ∈ r.allowed, m < inputCount r.numVars

theorem Request.mem_allowed {r : Request} {m : Nat} :
    m ∈ r.allowed ↔ m ∈ r.minterms ∨ m ∈ r.dontCares :=
  List.mem_append

/-! ## The pattern of one minterm -/

namespace Pattern

variable {n : Nat} (two_le : minVariables ≤ n) (le_six : n ≤ maxVariables)

/-- **The pattern that requires all digits of a minterm.** -/
def exactly (m : Nat) : Pattern :=
  ⟨bitsOfMask n (inputCount n - 1) m, by simpa using two_le, by simpa using le_six⟩

@[simp]
theorem numVars_exactly (m : Nat) : (exactly two_le le_six m).numVars = n :=
  length_bitsOfMask _ _ _

theorem bits_exactly (m : Nat) {i : Nat} (hi : i < n) :
    (exactly two_le le_six m).bits[i]? = some (some (m.testBit (n - 1 - i))) := by
  have hmask : (inputCount n - 1).testBit (n - 1 - i) = true := by
    rw [inputCount_eq, Nat.testBit_two_pow_sub_one, decide_eq_true_eq]
    omega
  show (bitsOfMask n (inputCount n - 1) m)[i]? = _
  unfold bitsOfMask
  rw [List.getElem?_map, List.getElem?_range hi, Option.map_some, if_pos hmask]

/-- It covers this minterm and no other. -/
theorem covered_exactly {m : Nat} (hm : m < inputCount n) :
    (exactly two_le le_six m).covered = [m] := by
  refine eq_of_ascending (pairwise_covered _) (List.pairwise_singleton _ _) fun k => ?_
  rw [mem_covered, covers_iff, agrees_iff, numVars_exactly, List.mem_singleton]
  have hlen : (exactly two_le le_six m).bits.length = n := numVars_exactly _ _ m
  rw [inputCount_eq] at hm ⊢
  constructor
  · rintro ⟨hk, hbits⟩
    refine Nat.eq_of_testBit_eq fun j => ?_
    rcases Nat.lt_or_ge j n with hj | hj
    · have hdigit := hbits (n - 1 - j) _ (bits_exactly _ _ m (by omega))
      rwa [hlen, show n - 1 - (n - 1 - j) = j by omega] at hdigit
    · -- beyond the variables both have zeros
      have hpow : 2 ^ n ≤ 2 ^ j := Nat.pow_le_pow_right (by decide) hj
      rw [Nat.testBit_lt_two_pow (hk.trans_le hpow), Nat.testBit_lt_two_pow (hm.trans_le hpow)]
  · rintro rfl
    refine ⟨hm, fun i b hi => ?_⟩
    have hin : i < n := hlen ▸ (List.getElem?_eq_some_iff.mp hi).1
    rw [bits_exactly _ _ k hin] at hi
    rw [hlen]
    exact Option.some.inj (Option.some.inj hi)

theorem literalCount_exactly (m : Nat) : (exactly two_le le_six m).literalCount = n := by
  have hlen : (exactly two_le le_six m).bits.length = n := numVars_exactly _ _ m
  refine (List.countP_eq_length.mpr fun r hr => ?_).trans hlen
  obtain ⟨i, hi, rfl⟩ := List.mem_iff_getElem.mp hr
  have hb := bits_exactly two_le le_six m (hlen ▸ hi)
  rw [List.getElem?_eq_getElem hi, Option.some.injEq] at hb
  rw [hb]
  rfl

/-- **A pattern that fixes all variables is the pattern of a minterm.** -/
theorem eq_exactly {p : Pattern} {m : Nat} (hn : p.numVars = n) (hp : p.literalCount = n)
    (hm : m ∈ p.covered) : p = exactly two_le le_six m := by
  have hall := List.countP_eq_length.mp (hp.trans hn.symm)
  have hagree := agrees_iff.mp (covers_iff.mp (mem_covered.mp hm)).2
  have hlen : p.bits.length = n := hn
  refine ext_bits (List.ext_getElem? fun i => ?_)
  rcases Nat.lt_or_ge i n with hi | hi
  · have hip : i < p.bits.length := hlen ▸ hi
    obtain ⟨b, hb⟩ := Option.isSome_iff_exists.mp (hall _ (List.getElem_mem hip))
    rw [bits_exactly _ _ m hi, List.getElem?_eq_getElem hip, hb, ← hlen,
      hagree i b (by rw [List.getElem?_eq_getElem hip, hb])]
  · have hle : (exactly two_le le_six m).bits.length ≤ i :=
      (numVars_exactly two_le le_six m).le.trans hi
    rw [List.getElem?_eq_none (hlen.le.trans hi), List.getElem?_eq_none hle]

end Pattern

theorem checkVariableCount_eq_ok {n : Nat} (two_le : minVariables ≤ n)
    (le_six : n ≤ maxVariables) : checkVariableCount n = .ok () :=
  if_pos ⟨two_le, le_six⟩

theorem Implicant.ofMinterm_eq_ok {n m : Nat} (two_le : minVariables ≤ n)
    (le_six : n ≤ maxVariables) (hm : m < inputCount n) :
    Implicant.ofMinterm n m = .ok (ofPattern (exactly two_le le_six m)) := by
  have hmask : inputCount n - 1 < inputCount n := by omega
  rw [ofPattern, covered_exactly _ _ hm, Implicant.ofMinterm, Pattern.ofMinterm,
    checkVariableCount_eq_ok two_le le_six, ofMask, dif_pos ⟨two_le, le_six⟩, if_pos hmask]
  simp only [bind, Except.bind, if_neg hm.not_ge]
  rfl

/-! ## The first round -/

/-- Where every step answers, all of them do. -/
theorem mapM_eq_ok {α β ε : Type} {f : α → Except ε β} {g : α → β} {xs : List α}
    (h : ∀ x ∈ xs, f x = .ok (g x)) : xs.mapM f = .ok (xs.map g) := by
  induction xs with
  | nil => rfl
  | cons x xs ih =>
    rw [List.mapM_cons, h x List.mem_cons_self,
      ih fun y hy => h y (List.mem_cons_of_mem x hy)]
    rfl

/-- **The first round** has an implicant with all literals for each minterm
that may be covered. -/
theorem firstRound_isRound {r : Request} (h : r.InRange) :
    ∃ round, firstRound r = .ok round ∧ IsRound r.numVars r.numVars r.allowed round := by
  have hlt : ∀ m ∈ ascending r.allowed, m < inputCount r.numVars := fun m hm =>
    h.lt_inputCount m (mem_ascending.mp hm)
  refine ⟨(ascending r.allowed).map fun m => ofPattern (exactly h.two_le h.le_six m),
    mapM_eq_ok fun m hm => ofMinterm_eq_ok h.two_le h.le_six (hlt m hm), ?_, fun i => ?_⟩
  · refine (pairwise_ascending r.allowed).nodup.map_on fun m hm k hk heq => ?_
    have hcovered := congrArg Implicant.minterms heq
    dsimp only [ofPattern] at hcovered
    rw [covered_exactly h.two_le h.le_six (hlt m hm),
      covered_exactly h.two_le h.le_six (hlt k hk)] at hcovered
    exact List.singleton_inj.mp hcovered
  · rw [List.mem_map]
    constructor
    · rintro ⟨m, hm, rfl⟩
      refine ⟨faithful_ofPattern _, ⟨numVars_exactly h.two_le h.le_six m, ?_⟩,
        literalCount_exactly h.two_le h.le_six m⟩
      intro k hk
      rw [ofPattern, covered_exactly _ _ (hlt m hm), List.mem_singleton] at hk
      exact hk ▸ mem_ascending.mp hm
    · rintro ⟨hf, ⟨hn, hsub⟩, hk⟩
      obtain ⟨m, hm⟩ := i.pattern.exists_mem_covered
      refine ⟨m, mem_ascending.mpr (hsub hm), ?_⟩
      rw [← eq_exactly h.two_le h.le_six hn hk hm]
      exact hf.eq_ofPattern.symm

/-! ## What is found -/

/-- **What is found** are the prime implicants that touch the minterms, each
with the minterms its pattern covers, in the order in which they are
shown. -/
theorem primeImplicants_spec {r : Request} (h : r.InRange) :
    ∃ primes, primeImplicants r = .ok primes
      ∧ primes.Pairwise (fun i j => i.displayOrder j = .lt)
      ∧ ∀ i : Implicant, i ∈ primes
          ↔ i.Faithful ∧ i.pattern.IsPrime r.numVars r.allowed
            ∧ ∃ m ∈ i.pattern.covered, m ∈ r.minterms := by
  obtain ⟨round, hround, hfirst⟩ := firstRound_isRound h
  obtain ⟨hnodup, hmem⟩ := hfirst.largest_spec le_rfl
  set useful := (largest round).filter
    fun i => i.minterms.any r.minterms.contains with huseful
  have hmem' : ∀ i : Implicant, i ∈ useful
      ↔ i.Faithful ∧ i.pattern.IsPrime r.numVars r.allowed
        ∧ ∃ m ∈ i.pattern.covered, m ∈ r.minterms := by
    intro i
    rw [huseful, List.mem_filter, hmem, List.any_eq_true]
    simp only [List.contains_iff_mem]
    constructor
    · rintro ⟨⟨hf, hp, -⟩, htouch⟩
      exact ⟨hf, hp, hf ▸ htouch⟩
    · rintro ⟨hf, hp, htouch⟩
      exact ⟨⟨hf, hp, (literalCount_le _).trans hp.1.1.le⟩, hf ▸ htouch⟩
  refine ⟨useful.mergeSort displayLe, ?_, ?_, fun i => ?_⟩
  · rw [primeImplicants, hround]
    rfl
  · exact pairwise_mergeSort_displayLe (fun i hi => ((hmem' i).mp hi).1) (hnodup.filter _)
  · rw [(List.mergeSort_perm useful displayLe).mem_iff, hmem']

/-- **The prime implicants, told by the sets they cover.** Every request in
range is answered, with a list that is in strict order. A pattern occurs in
it exactly when all it covers may be covered, some of it must be, and no
pattern that covers strictly more covers only what may be. What is listed
with a pattern is what the pattern covers. -/
theorem primeImplicants_eq_maximal (r : Request) (h : r.InRange) :
    ∃ primes, primeImplicants r = .ok primes
      ∧ primes.Pairwise (fun i j => i.displayOrder j = .lt)
      ∧ (∀ i ∈ primes, i.minterms = i.pattern.covered)
      ∧ ∀ p : Pattern, p ∈ primes.map Implicant.pattern
          ↔ p.numVars = r.numVars
            ∧ (∀ m ∈ p.covered, m ∈ r.minterms ∨ m ∈ r.dontCares)
            ∧ (∃ m ∈ p.covered, m ∈ r.minterms)
            ∧ ¬∃ q : Pattern, q.numVars = r.numVars
                ∧ (p.covered ⊆ q.covered ∧ ¬q.covered ⊆ p.covered)
                ∧ ∀ m ∈ q.covered, m ∈ r.minterms ∨ m ∈ r.dontCares := by
  obtain ⟨primes, hok, hsorted, hmem⟩ := primeImplicants_spec h
  refine ⟨primes, hok, hsorted, fun i hi => ((hmem i).mp hi).1, fun p => ?_⟩
  have hlisted : p ∈ primes.map Implicant.pattern
      ↔ p.IsPrime r.numVars r.allowed ∧ ∃ m ∈ p.covered, m ∈ r.minterms := by
    rw [List.mem_map]
    constructor
    · rintro ⟨i, hi, rfl⟩
      exact ((hmem i).mp hi).2
    · rintro ⟨hp, htouch⟩
      exact ⟨ofPattern p, (hmem _).mpr ⟨faithful_ofPattern p, hp, htouch⟩, rfl⟩
  have hallowed : ∀ q : Pattern, q.covered ⊆ r.allowed
      ↔ ∀ m ∈ q.covered, m ∈ r.minterms ∨ m ∈ r.dontCares := fun q =>
    forall_congr' fun m => imp_congr_right fun _ => Request.mem_allowed
  rw [hlisted]
  constructor
  · rintro ⟨⟨⟨hn, hsub⟩, hmax⟩, htouch⟩
    refine ⟨hn, (hallowed p).mp hsub, htouch, ?_⟩
    rintro ⟨q, hq, ⟨hpq, hqp⟩, hqsub⟩
    rw [hmax q ⟨hq, (hallowed q).mpr hqsub⟩ hpq] at hqp
    exact hqp (List.Subset.refl _)
  · rintro ⟨hn, hsub, htouch, hmax⟩
    refine ⟨⟨⟨hn, (hallowed p).mpr hsub⟩, fun q hq hpq => ?_⟩, htouch⟩
    by_contra hne
    refine hmax ⟨q, hq.1, ⟨hpq, fun hqp => hne ?_⟩, (hallowed q).mp hq.2⟩
    refine covered_injective (hq.1.trans hn.symm) ?_
    exact eq_of_ascending q.pairwise_covered p.pairwise_covered
      fun m => ⟨fun hm => hqp hm, fun hm => hpq hm⟩

/-- The theorem at a request whose lists repeat themselves and overlap. -/
theorem primeImplicants_eq_maximal_overlapping :
    (⟨3, [7, 1, 3, 1], [5, 3, 0]⟩ : Request).InRange
      ∧ ∃ primes, primeImplicants ⟨3, [7, 1, 3, 1], [5, 3, 0]⟩ = .ok primes
        ∧ primes.Pairwise (fun i j => i.displayOrder j = .lt)
        ∧ (∀ i ∈ primes, i.minterms = i.pattern.covered)
        ∧ ∀ p : Pattern, p ∈ primes.map Implicant.pattern
            ↔ p.numVars = 3
              ∧ (∀ m ∈ p.covered, m ∈ [7, 1, 3, 1] ∨ m ∈ [5, 3, 0])
              ∧ (∃ m ∈ p.covered, m ∈ [7, 1, 3, 1])
              ∧ ¬∃ q : Pattern, q.numVars = 3
                  ∧ (p.covered ⊆ q.covered ∧ ¬q.covered ⊆ p.covered)
                  ∧ ∀ m ∈ q.covered, m ∈ [7, 1, 3, 1] ∨ m ∈ [5, 3, 0] :=
  have h : (⟨3, [7, 1, 3, 1], [5, 3, 0]⟩ : Request).InRange :=
    ⟨by decide, by decide, by decide⟩
  ⟨h, primeImplicants_eq_maximal _ h⟩

end Karnaugh
