import Mathlib
import Karnaugh.Ascending
import Karnaugh.Implicant

/-!
# Patterns as sets of minterms

A pattern is read here through the minterms it covers. Three facts carry
everything that is said of prime implicants and covers:

* a pattern on as many variables covers less exactly when it requires
  more (`Pattern.covered_subset_iff`), so a pattern is known by what it
  covers (`Pattern.covered_injective`);
* leaving a required position open covers what the pattern covers and what
  the pattern with that requirement reversed covers (`agrees_set`);
* two rows merge exactly when one is the other with one requirement
  reversed, and they merge into the row with that position left open
  (`mergeBits?_eq_some_iff`).

All three are stated by positions. The recursion of the definitions is
opened once for each and not again.
-/

namespace Karnaugh

theorem inputCount_eq (n : Nat) : inputCount n = 2 ^ n := rfl

/-- Ascending lists with the same members are the same list. -/
theorem eq_of_ascending {xs ys : List Nat} (hx : xs.Pairwise (· < ·))
    (hy : ys.Pairwise (· < ·)) (h : ∀ k, k ∈ xs ↔ k ∈ ys) : xs = ys :=
  hx.eq_of_mem_iff hy h

/-- A list that is ascending already is left as it is. -/
theorem ascending_eq_self {xs : List Nat} (h : xs.Pairwise (· < ·)) : ascending xs = xs :=
  eq_of_ascending (pairwise_ascending xs) h fun _ => mem_ascending

/-- The length of a list brought into order is the number of its members. -/
theorem length_ascending (ns : List Nat) : (ascending ns).length = ns.toFinset.card := by
  rw [← List.toFinset_card_of_nodup (pairwise_ascending ns).nodup]
  refine congrArg Finset.card (Finset.ext fun n => ?_)
  rw [List.mem_toFinset, List.mem_toFinset, mem_ascending]

namespace Pattern

/-! ## What a row of requirements says of a minterm -/

/-- **A minterm meets a row when it has every digit the row requires.** The
first position is about the most significant digit. -/
theorem agrees_iff {bits : List (Option Bool)} {m : Nat} :
    agrees bits m = true
      ↔ ∀ (i : Nat) (b : Bool), bits[i]? = some (some b)
          → m.testBit (bits.length - 1 - i) = b := by
  induction bits with
  | nil => simp [agrees]
  | cons r rest ih =>
    rw [agrees, Bool.and_eq_true, ih]
    constructor
    · rintro ⟨hr, hrest⟩ i b hi
      cases i with
      | zero =>
        rw [List.getElem?_cons_zero, Option.some.injEq] at hi
        rw [hi] at hr
        exact (beq_iff_eq.mp hr).symm
      | succ i =>
        rw [List.getElem?_cons_succ] at hi
        rw [List.length_cons, show rest.length + 1 - 1 - (i + 1) = rest.length - 1 - i by omega]
        exact hrest i b hi
    · intro h
      refine ⟨?_, fun i b hi => ?_⟩
      · cases r with
        | none => rfl
        | some b => simpa using (h 0 b rfl).symm
      · have hb := h (i + 1) b hi
        rwa [List.length_cons,
          show rest.length + 1 - 1 - (i + 1) = rest.length - 1 - i by omega] at hb

/-- Only as many digits count as there are positions. -/
theorem agrees_mod {bits : List (Option Bool)} {m : Nat} :
    agrees bits (m % 2 ^ bits.length) = true ↔ agrees bits m = true := by
  rw [agrees_iff, agrees_iff]
  refine forall_congr' fun i => forall_congr' fun b => imp_congr_right fun hi => ?_
  have hlt := (List.getElem?_eq_some_iff.mp hi).1
  have hdigit : bits.length - 1 - i < bits.length := by omega
  rw [Nat.testBit_mod_two_pow, decide_eq_true hdigit, Bool.true_and]

/-- **A row cut in two** is met where the first part is met by the leading
digits and the second by the others. -/
theorem agrees_append {as bs : List (Option Bool)} {m : Nat} :
    agrees (as ++ bs) m = true
      ↔ agrees as (m >>> bs.length) = true ∧ agrees bs (m % 2 ^ bs.length) = true := by
  rw [agrees_mod]
  induction as with
  | nil => exact (and_iff_right rfl).symm
  | cons r rest ih =>
    rw [List.cons_append, agrees, agrees, Bool.and_eq_true, Bool.and_eq_true, ih, and_assoc,
      Nat.testBit_shiftRight, List.length_append, Nat.add_comm rest.length]

/-- **One requirement at a time**: a row with a position set to `r` is met
by the minterms that meet it with that position open and that satisfy
`r` there. -/
theorem agrees_set {bits : List (Option Bool)} {i m : Nat} {r : Option Bool}
    (hi : i < bits.length) :
    agrees (bits.set i r) m = true
      ↔ agrees (bits.set i none) m = true
          ∧ ∀ b, r = some b → m.testBit (bits.length - 1 - i) = b := by
  simp only [agrees_iff, List.length_set]
  constructor
  · intro h
    refine ⟨fun j b hj => h j b ?_, fun b hb => h i b ?_⟩
    · rw [List.getElem?_set] at hj ⊢
      split at hj <;> simp_all
    · rw [List.getElem?_set_self hi, hb]
  · rintro ⟨hopen, hr⟩ j b hj
    by_cases hij : i = j
    · subst hij
      rw [List.getElem?_set_self hi, Option.some.injEq] at hj
      exact hr b hj
    · rw [List.getElem?_set_ne hij] at hj
      exact hopen j b (by rw [List.getElem?_set_ne hij]; exact hj)

/-- A minterm that has given digits at all positions. -/
theorem exists_testBit_eq (n : Nat) (f : Nat → Bool) :
    ∃ m < 2 ^ n, ∀ i < n, m.testBit (n - 1 - i) = f i := by
  refine ⟨Nat.ofBits fun k : Fin n => f (n - 1 - k), Nat.ofBits_lt_two_pow _, fun i hi => ?_⟩
  rw [Nat.testBit_ofBits_lt _ _ (by omega)]
  exact congrArg f (by simp only; omega)

variable {p q : Pattern}

theorem covers_iff {m : Nat} :
    p.covers m = true ↔ m < inputCount p.numVars ∧ agrees p.bits m = true := by
  simp [covers]

theorem lt_inputCount_of_mem_covered {m : Nat} (h : m ∈ p.covered) :
    m < inputCount p.numVars :=
  (covers_iff.mp (mem_covered.mp h)).1

theorem pairwise_covered (p : Pattern) : p.covered.Pairwise (· < ·) :=
  List.Pairwise.filter _ List.pairwise_lt_range

/-- No pattern is empty: a minterm with the required digits is covered. -/
theorem exists_mem_covered (p : Pattern) : ∃ m, m ∈ p.covered := by
  obtain ⟨m, hm, hbit⟩ := exists_testBit_eq p.numVars fun i => (p.bits[i]?).join == some true
  refine ⟨m, mem_covered.mpr (covers_iff.mpr ⟨hm, agrees_iff.mpr fun i b hi => ?_⟩)⟩
  have hlt : i < p.bits.length := (List.getElem?_eq_some_iff.mp hi).1
  show m.testBit (p.numVars - 1 - i) = b
  rw [hbit i hlt, hi]
  cases b <;> rfl

/-- **A pattern covers less exactly when it requires more.** -/
theorem covered_subset_iff (h : p.numVars = q.numVars) :
    p.covered ⊆ q.covered
      ↔ ∀ (i : Nat) (b : Bool), q.bits[i]? = some (some b) → p.bits[i]? = some (some b) := by
  constructor
  · intro hsub i b hi
    have hlt : i < q.numVars := (List.getElem?_eq_some_iff.mp hi).1
    -- a minterm of `p` that has the wrong digit at `i` unless `p` forbids it
    obtain ⟨m, hm, hbit⟩ := exists_testBit_eq p.numVars fun j => ((p.bits[j]?).join).getD (!b)
    have hp : m ∈ p.covered := by
      refine mem_covered.mpr (covers_iff.mpr ⟨hm, agrees_iff.mpr fun j c hj => ?_⟩)
      have hjlt : j < p.bits.length := (List.getElem?_eq_some_iff.mp hj).1
      show m.testBit (p.numVars - 1 - j) = c
      rw [hbit j hjlt, hj]
      rfl
    have hq := agrees_iff.mp (covers_iff.mp (mem_covered.mp (hsub hp))).2 i b hi
    rw [show q.bits.length - 1 - i = p.numVars - 1 - i by rw [h]; rfl,
      hbit i (by omega)] at hq
    have hip : i < p.bits.length := by rw [h.symm] at hlt; exact hlt
    rw [List.getElem?_eq_getElem hip] at hq ⊢
    cases hr : p.bits[i] with
    | none => rw [hr] at hq; cases b <;> simp at hq
    | some c => rw [hr] at hq; simpa using hq
  · intro hpos m hm
    obtain ⟨hlt, hagree⟩ := covers_iff.mp (mem_covered.mp hm)
    refine mem_covered.mpr (covers_iff.mpr ⟨h ▸ hlt, agrees_iff.mpr fun i b hi => ?_⟩)
    rw [show q.bits.length - 1 - i = p.bits.length - 1 - i by
      rw [show q.bits.length = p.bits.length from h.symm]]
    exact agrees_iff.mp hagree i b (hpos i b hi)

/-- Patterns with the same requirements are the same pattern. -/
theorem ext_bits (h : p.bits = q.bits) : p = q := by
  cases p; cases q; cases h; rfl

/-- **A pattern is known by what it covers.** -/
theorem covered_injective (h : p.numVars = q.numVars) (hc : p.covered = q.covered) : p = q := by
  have hpq := (covered_subset_iff h).mp (hc ▸ List.Subset.refl _)
  have hqp := (covered_subset_iff h.symm).mp (hc ▸ List.Subset.refl _)
  refine ext_bits (List.ext_getElem h fun i hp hq => ?_)
  have hpos : ∀ b, p.bits[i] = some b ↔ q.bits[i] = some b := fun b => by
    have h₁ := hpq i b
    have h₂ := hqp i b
    rw [List.getElem?_eq_getElem hp, List.getElem?_eq_getElem hq, Option.some.injEq,
      Option.some.injEq] at h₁ h₂
    exact ⟨h₂, h₁⟩
  exact Option.ext hpos

/-! ## On other variables -/

section OnVariables

variable {n : Nat} (two_le : minVariables ≤ n) (le_six : n ≤ maxVariables)

/-- **The pattern on another number of variables**: what it requires of those
that it knows, and nothing of the others. -/
def onVariables (p : Pattern) : Pattern :=
  ⟨(List.range n).map p.bit, by simpa using two_le, by simpa using le_six⟩

variable {two_le le_six}

@[simp]
theorem numVars_onVariables : (p.onVariables two_le le_six).numVars = n := by
  simp [numVars, onVariables]

theorem bit_eq_some_iff {i : Nat} {b : Bool} :
    p.bit i = some b ↔ p.bits[i]? = some (some b) :=
  Option.join_eq_some_iff

theorem getElem?_onVariables {i : Nat} {b : Bool} :
    (p.onVariables two_le le_six).bits[i]? = some (some b)
      ↔ i < n ∧ p.bits[i]? = some (some b) := by
  rw [← bit_eq_some_iff, ← bit_eq_some_iff, bit, onVariables]
  rcases Nat.lt_or_ge i n with hi | hi
  · rw [List.getElem?_map, List.getElem?_range hi, and_iff_right hi]
    rfl
  · rw [List.getElem?_eq_none (by simpa using hi)]
    exact ⟨nofun, fun h => absurd h.1 hi.not_gt⟩

variable (two_le le_six) in
theorem onVariables_self (h : p.numVars = n) : p.onVariables two_le le_six = p := by
  refine ext_bits (List.ext_getElem (numVars_onVariables.trans h.symm) fun i hi hp => ?_)
  simp [onVariables, bit, List.getElem?_eq_getElem hp]

end OnVariables

/-! ## Reversing and opening a position -/

/-- **The pattern with another requirement at a position.** -/
def update (p : Pattern) (i : Nat) (r : Option Bool) : Pattern :=
  ⟨p.bits.set i r, by simpa using p.two_le, by simpa using p.le_six⟩

@[simp]
theorem bits_update (p : Pattern) (i : Nat) (r : Option Bool) :
    (p.update i r).bits = p.bits.set i r := rfl

@[simp]
theorem numVars_update (p : Pattern) (i : Nat) (r : Option Bool) :
    (p.update i r).numVars = p.numVars := List.length_set

/-- The position that is updated has what it was updated to. -/
theorem getElem?_update_self {i : Nat} {s : Option Bool} (h : p.bits[i]? = some s)
    (r : Option Bool) : (p.update i r).bits[i]? = some r :=
  List.getElem?_set_self (List.getElem?_eq_some_iff.mp h).1

theorem update_update (p : Pattern) (i : Nat) (r s : Option Bool) :
    (p.update i r).update i s = p.update i s :=
  ext_bits (List.set_set _)

theorem update_self {i : Nat} {r : Option Bool} (h : p.bits[i]? = some r) : p.update i r = p := by
  obtain ⟨hi, rfl⟩ := List.getElem?_eq_some_iff.mp h
  exact ext_bits (List.set_getElem_self hi)

/-- **Leaving a position open joins the two patterns that fix it.** -/
theorem mem_covered_update_none {i m : Nat} (hi : i < p.numVars) (v : Bool) :
    m ∈ (p.update i none).covered
      ↔ m ∈ (p.update i (some v)).covered ∨ m ∈ (p.update i (some !v)).covered := by
  have hset := fun r : Option Bool => agrees_set (m := m) (r := r) hi
  simp only [mem_covered, covers_iff, numVars_update, bits_update, hset (some v), hset (some !v)]
  cases m.testBit (p.bits.length - 1 - i) <;> cases v <;> simp

theorem covered_subset_update_none (p : Pattern) (i : Nat) :
    p.covered ⊆ (p.update i none).covered := by
  rw [covered_subset_iff (numVars_update p i none).symm]
  intro j b hj
  rw [bits_update, List.getElem?_set] at hj
  split at hj <;> simp_all

/-- Opening a position that is fixed takes one literal away. -/
theorem literalCount_update_none {i : Nat} {v : Bool} (h : p.bits[i]? = some (some v)) :
    (p.update i none).literalCount + 1 = p.literalCount := by
  obtain ⟨hi, hv⟩ := List.getElem?_eq_some_iff.mp h
  have hpos : 0 < p.bits.countP Option.isSome :=
    List.countP_pos_iff.mpr ⟨_, List.getElem_mem hi, by rw [hv]; rfl⟩
  unfold literalCount
  rw [bits_update, List.countP_set hi, hv]
  simp only [Option.isSome_some, if_true, Option.isSome_none, Bool.false_eq_true, if_false]
  omega

/-- Fixing a position that is open adds one literal. -/
theorem literalCount_update_some {i : Nat} (v : Bool) (h : p.bits[i]? = some none) :
    (p.update i (some v)).literalCount = p.literalCount + 1 := by
  obtain ⟨hi, hv⟩ := List.getElem?_eq_some_iff.mp h
  unfold literalCount
  rw [bits_update, List.countP_set hi, hv]
  simp

theorem literalCount_le (p : Pattern) : p.literalCount ≤ p.numVars :=
  List.countP_le_length

/-- A pattern with fewer literals than variables has an open position. -/
theorem exists_open (h : p.literalCount < p.numVars) : ∃ i : Nat, p.bits[i]? = some none := by
  by_contra hno
  have hall : p.literalCount = p.numVars := by
    refine List.countP_eq_length.mpr fun r hr => ?_
    obtain ⟨i, hi, rfl⟩ := List.mem_iff_getElem.mp hr
    rw [Option.isSome_iff_ne_none]
    intro hnone
    exact hno ⟨i, by rw [List.getElem?_eq_getElem hi, hnone]⟩
  omega

/-- **Covering strictly more means leaving a position open**: when a pattern
covers strictly less than another, one of its positions can be left open
without covering anything that the other does not. -/
theorem exists_update_none_subset (h : p.numVars = q.numVars) (hsub : p.covered ⊆ q.covered)
    (hne : p ≠ q) :
    ∃ (i : Nat) (v : Bool), p.bits[i]? = some (some v)
      ∧ (p.update i none).covered ⊆ q.covered := by
  have hreq := (covered_subset_iff h).mp hsub
  -- a requirement of `p` that `q` does not have
  obtain ⟨i, v, hi, hqi⟩ : ∃ (i : Nat) (v : Bool),
      p.bits[i]? = some (some v) ∧ q.bits[i]? ≠ some (some v) := by
    by_contra hno
    push Not at hno
    have hback : q.covered ⊆ p.covered := (covered_subset_iff h.symm).mpr hno
    exact hne (covered_injective h (eq_of_ascending p.pairwise_covered q.pairwise_covered
      fun m => ⟨fun hm => hsub hm, fun hm => hback hm⟩))
  refine ⟨i, v, hi, ?_⟩
  rw [covered_subset_iff (by rw [numVars_update, h])]
  intro j b hj
  have hij : i ≠ j := by
    rintro rfl
    rw [hreq i b hj] at hi
    exact hqi (by rw [hj, hi])
  rw [bits_update, List.getElem?_set_ne hij]
  exact hreq j b hj

/-! ## Merging -/

/-- **Rows merge when one is the other with a requirement reversed**, and
they merge into the row with that position open. -/
theorem mergeBits?_eq_some_iff {as bs cs : List (Option Bool)} :
    mergeBits? as bs = some cs
      ↔ ∃ (i : Nat) (v : Bool), as[i]? = some (some v) ∧ bs = as.set i (some !v)
          ∧ cs = as.set i none := by
  fun_induction mergeBits? as bs generalizing cs with
  | case1 a as bs ih =>
    -- equal requirements: the rows differ further on
    rw [Option.map_eq_some_iff]
    constructor
    · rintro ⟨_, hm, rfl⟩
      obtain ⟨i, v, hi, rfl, rfl⟩ := ih.mp hm
      exact ⟨i + 1, v, hi, rfl, rfl⟩
    · rintro ⟨i, v, hi, hb, rfl⟩
      cases i with
      | zero => cases hi; simp at hb
      | succ i => exact ⟨_, ih.mpr ⟨i, v, hi, (List.cons.inj hb).2, rfl⟩, rfl⟩
  | case2 a b bs hab =>
    -- opposite requirements before equal rows
    constructor
    · rintro ⟨⟩
      exact ⟨0, a, rfl, by rw [List.set_cons_zero, Bool.eq_not_of_ne (Ne.symm hab)], rfl⟩
    · rintro ⟨i, v, hi, hb, rfl⟩
      cases i with
      | zero => rfl
      | succ i => exact absurd (Option.some.inj (List.cons.inj hb).1).symm hab
  | case3 a as b bs hab hne =>
    refine ⟨fun h => absurd h.symm (Option.some_ne_none _), ?_⟩
    rintro ⟨i, v, hi, hb, rfl⟩
    cases i with
    | zero => exact absurd (List.cons.inj hb).2.symm hne
    | succ i => exact absurd (Option.some.inj (List.cons.inj hb).1).symm hab
  | case4 as bs ih =>
    rw [Option.map_eq_some_iff]
    constructor
    · rintro ⟨_, hm, rfl⟩
      obtain ⟨i, v, hi, rfl, rfl⟩ := ih.mp hm
      exact ⟨i + 1, v, hi, rfl, rfl⟩
    · rintro ⟨i, v, hi, hb, rfl⟩
      cases i with
      | zero => cases hi
      | succ i => exact ⟨_, ih.mpr ⟨i, v, hi, (List.cons.inj hb).2, rfl⟩, rfl⟩
  | case5 as bs hsome hnone =>
    refine ⟨fun h => absurd h.symm (Option.some_ne_none _), ?_⟩
    rintro ⟨i, v, hi, rfl, rfl⟩
    cases as with
    | nil => cases hi
    | cons a as =>
      cases i with
      | zero => cases hi; exact (hsome _ _ _ _ rfl rfl).elim
      | succ i =>
        cases a with
        | none => exact (hnone _ _ rfl rfl).elim
        | some a => exact (hsome _ _ _ _ rfl rfl).elim

/-- **Patterns merge when one is the other with a requirement reversed.** -/
theorem merge?_eq_some_iff {p q r : Pattern} :
    p.merge? q = some r
      ↔ ∃ (i : Nat) (v : Bool), p.bits[i]? = some (some v) ∧ q = p.update i (some !v)
          ∧ r = p.update i none := by
  simp only [merge?, Option.bind_eq_some_iff, mergeBits?_eq_some_iff, ofBits?_eq_some_iff]
  constructor
  · rintro ⟨cs, ⟨i, v, hi, hq, rfl⟩, hr⟩
    exact ⟨i, v, hi, ext_bits hq, ext_bits hr.symm⟩
  · rintro ⟨i, v, hi, rfl, rfl⟩
    exact ⟨_, ⟨i, v, hi, rfl, rfl⟩, rfl⟩

end Pattern

end Karnaugh
