import Karnaugh.Proofs.PatternTexts
import Karnaugh.Proofs.PrimeImplicants

/-!
# Every round of a request

The rounds that start with the minterms of a request are followed here from
the first to the last. Counted from zero, the `k`-th of them holds the
implicants of the minterms that may be covered which leave `k` variables open
(`IsRound.iterate`). An implicant without literals has nothing to lose, so
after as many rounds as variables, and one more, nothing is left
(`IsRound.length_rounds_le`).

A round takes two short cuts, and neither changes what comes of it.

* It compares neighbouring buckets only. But implicants that combine fix the
  same positions, and one of them has exactly one more of them to be one
  (`Implicant.keys_of_combine?`). So a pair is missed at most in one of its
  two orders, and in the other order it gives the same
  (`Implicant.combine?_comm`).
* Of implicants with the same pattern it keeps the first. But what a pattern
  covers is all that an implicant has beside it, so the others are the same
  (`mem_collect`).

What is collected is in the order of patterns. Since this order tells
patterns apart (`Pattern.orderKey_injective`), the next round depends only on
*which* implicants have combined, not on when. Comparing all pairs therefore
makes the same list and the same marks (`IsRound.collect_allMerges`,
`IsRound.marks_allMerges`).
-/

namespace Karnaugh

/-! ## The order of patterns -/

namespace Pattern

/-- **What the place of a pattern depends on**, in the order of importance. -/
def orderKey (p : Pattern) : ℕ ×ₗ ℕ ×ₗ ℕ :=
  toLex (p.numVars, toLex (p.mask, p.value))

theorem le_iff {p q : Pattern} : p.le q = true ↔ p.orderKey ≤ q.orderKey := by
  simp only [le, orderKey, Bool.or_eq_true, Bool.and_eq_true, decide_eq_true_eq, beq_iff_eq,
    Prod.Lex.toLex_le_toLex]

/-- **The order tells patterns apart**: a row is known by its mask and its
value. -/
theorem orderKey_injective : Function.Injective orderKey := by
  intro p q h
  simp only [orderKey, EmbeddingLike.apply_eq_iff_eq, Prod.mk.injEq] at h
  obtain ⟨hn, hmask, hvalue⟩ := h
  refine ext_bits ?_
  rw [← bitsOfMask_number p.bits, ← bitsOfMask_number q.bits]
  exact congr (congrArg₂ bitsOfMask hn hmask) hvalue

end Pattern

open Pattern Implicant

namespace Implicant

/-- An implicant is not after another one in the order of patterns. -/
def PatternLe (i j : Implicant) : Prop := i.pattern.le j.pattern = true

instance : DecidableRel PatternLe := fun i j =>
  inferInstanceAs (Decidable (i.pattern.le j.pattern = true))

theorem patternLe_iff {i j : Implicant} :
    i.PatternLe j ↔ i.pattern.orderKey ≤ j.pattern.orderKey :=
  Pattern.le_iff

instance : Std.Total PatternLe where
  total i j := by
    rw [patternLe_iff, patternLe_iff]
    exact le_total _ _

instance : IsTrans Implicant PatternLe where
  trans i j k hij hjk := by
    rw [patternLe_iff] at hij hjk ⊢
    exact hij.trans hjk

end Implicant

/-- **Adding keeps the order.** -/
theorem pairwise_addNew {round : List Implicant} (i : Implicant)
    (h : round.Pairwise PatternLe) : (addNew round i).Pairwise PatternLe := by
  unfold addNew
  split
  · exact h
  · have hinsert := h.orderedInsert i round
    rw [List.orderedInsert_eq_take_drop] at hinsert
    simpa only [PatternLe, Bool.not_eq_true, Bool.decide_eq_false] using hinsert

/-- **What is collected is in the order of patterns.** -/
theorem pairwise_collect (found : List Merge) : (collect found).Pairwise PatternLe :=
  List.foldlRecOn (motive := fun round => round.Pairwise PatternLe) _ addNew List.Pairwise.nil
    fun _ h i _ => pairwise_addNew i h

/-- **What is collected depends only on which implicants have combined**, where
these are faithful. -/
theorem collect_congr {found found' : List Merge} (hf : ∀ m ∈ found, m.merged.Faithful)
    (hf' : ∀ m ∈ found', m.merged.Faithful)
    (h : ∀ i : Implicant, (∃ m ∈ found, m.merged = i) ↔ ∃ m ∈ found', m.merged = i) :
    collect found = collect found' := by
  have hmem : ∀ i : Implicant, i ∈ collect found ↔ i ∈ collect found' := fun i => by
    rw [mem_collect hf, mem_collect hf', h]
  refine List.Perm.eq_of_pairwise (fun i j hi hj hij hji => ?_)
    (pairwise_collect found) (pairwise_collect found')
    ((List.perm_ext_iff_of_nodup (nodup_collect found).of_map (nodup_collect found').of_map).mpr
      hmem)
  -- in both orders at once are implicants of one pattern
  obtain ⟨m, hm, rfl⟩ := exists_of_mem_collect hi
  obtain ⟨m', hm', rfl⟩ := exists_of_mem_collect hj
  rw [patternLe_iff] at hij hji
  exact (hf m hm).ext (hf' m' hm') (orderKey_injective (hij.antisymm hji))

/-- Marks depend only on which places have combined. -/
theorem marks_congr {size : Nat} {found found' : List Merge}
    (h : ∀ place : Nat, (∃ m ∈ found, m.lower.2 = place ∨ m.upper.2 = place)
      ↔ ∃ m ∈ found', m.lower.2 = place ∨ m.upper.2 = place) :
    marks size found = marks size found' := by
  refine List.ext_getElem (by simp) fun place hp hp' => ?_
  rw [Bool.eq_iff_iff, ← Option.some_inj, ← Option.some_inj (b := true),
    ← List.getElem?_eq_getElem hp, ← List.getElem?_eq_getElem hp', getElem?_marks,
    getElem?_marks, h]

/-! ## All pairs -/

namespace Implicant

/-- **Implicants that combine are in neighbouring buckets**: they fix the same
positions, and one of them requires one more of them to be one. -/
theorem keys_of_combine? {i j c : Implicant} (h : i.combine? j = some c) :
    j.pattern.mask = i.pattern.mask ∧ (j.ones = i.ones + 1 ∨ i.ones = j.ones + 1) := by
  obtain ⟨k, v, hk, hj, -⟩ := combine?_eq_some_iff.mp h
  unfold ones
  rw [hj]
  refine ⟨mask_update hk, ?_⟩
  cases v with
  | false => exact Or.inl (ones_update_true hk)
  | true => exact Or.inr (ones_update_false hk).symm

/-- **Combining is symmetric**, on faithful implicants. -/
theorem combine?_comm {i j c : Implicant} (hi : i.Faithful) (hj : j.Faithful)
    (h : i.combine? j = some c) : j.combine? i = some c := by
  obtain ⟨k, v, hk, hpattern, rfl⟩ := combine?_eq_some_iff.mp h
  refine combine?_eq_some_iff.mpr ⟨k, !v, ?_, ?_, ?_⟩
  · rw [hpattern]
    exact getElem?_update_self hk _
  · rw [hpattern, Bool.not_not, update_update, update_self hk]
  · have hminterms : unionAscending i.minterms j.minterms
        = unionAscending j.minterms i.minterms := by
      rw [hi, hj]
      refine eq_of_ascending (pairwise_unionAscending (pairwise_covered _))
        (pairwise_unionAscending (pairwise_covered _)) fun m => ?_
      rw [mem_unionAscending, mem_unionAscending, or_comm]
    rw [hpattern, update_update, hminterms]

end Implicant

/-- **Everything that combines, whatever the buckets**: each implicant of a round
is compared with each. -/
def allMerges (round : List Implicant) : List Merge :=
  mergesBetween round.zipIdx round.zipIdx

/-- A pair in the other order. -/
def Merge.swap (m : Merge) : Merge := ⟨m.upper, m.lower, m.merged⟩

/-- **The buckets miss no pair**, only one of its two orders. -/
theorem mem_allMerges_iff {round : List Implicant} (hr : ∀ i ∈ round, i.Faithful) {m : Merge} :
    m ∈ allMerges round ↔ m ∈ merges round ∨ m.swap ∈ merges round := by
  rw [allMerges, mem_mergesBetween, mem_merges, mem_merges]
  constructor
  · rintro ⟨hl, hu, hc⟩
    obtain ⟨hmask, hones | hones⟩ := keys_of_combine? hc
    · exact Or.inl ⟨hl, hu, hmask, hones, hc⟩
    · exact Or.inr ⟨hu, hl, hmask.symm, hones, combine?_comm
        (hr _ (List.fst_mem_of_mem_zipIdx hl)) (hr _ (List.fst_mem_of_mem_zipIdx hu)) hc⟩
  · rintro (⟨hl, hu, -, -, hc⟩ | ⟨hu, hl, -, -, hc⟩)
    · exact ⟨hl, hu, hc⟩
    · exact ⟨hl, hu, combine?_comm
        (hr _ (List.fst_mem_of_mem_zipIdx hu)) (hr _ (List.fst_mem_of_mem_zipIdx hl)) hc⟩

namespace IsRound

variable {n k : Nat} {S : List Nat} {round : List Implicant}

/-- **Comparing all pairs gives the same next round.** -/
theorem collect_allMerges (h : IsRound n k S round) :
    collect (allMerges round) = nextRound round := by
  have hall : ∀ {m : Merge}, m ∈ allMerges round → m ∈ merges round ∨ m.swap ∈ merges round :=
    (mem_allMerges_iff fun _ => h.faithful).mp
  refine collect_congr (fun m hm => ?_) (fun _ => h.faithful_merged) fun i => ⟨?_, ?_⟩
  · exact (hall hm).elim h.faithful_merged fun hswap => h.faithful_merged (m := m.swap) hswap
  · rintro ⟨m, hm, rfl⟩
    exact (hall hm).elim (fun hm => ⟨m, hm, rfl⟩) fun hswap => ⟨m.swap, hswap, rfl⟩
  · rintro ⟨m, hm, rfl⟩
    exact ⟨m, (mem_allMerges_iff fun _ => h.faithful).mpr (Or.inl hm), rfl⟩

/-- **Comparing all pairs makes the same marks.** -/
theorem marks_allMerges (h : IsRound n k S round) :
    marks round.length (allMerges round) = used round := by
  refine marks_congr fun place => ⟨?_, ?_⟩
  · rintro ⟨m, hm, hplace⟩
    rcases (mem_allMerges_iff fun _ => h.faithful).mp hm with hm | hswap
    · exact ⟨m, hm, hplace⟩
    · exact ⟨m.swap, hswap, hplace.symm⟩
  · rintro ⟨m, hm, hplace⟩
    exact ⟨m, (mem_allMerges_iff fun _ => h.faithful).mpr (Or.inl hm), hplace⟩

/-- **A place is marked when a wider implicant covers it**: one that has a
literal less. -/
theorem used_iff_exists_wider (h : IsRound n k S round) {i : Implicant} {place : Nat}
    (hi : round[place]? = some i) :
    (used round)[place]? = some true
      ↔ ∃ q : Pattern, q.IsImplicant n S ∧ q.literalCount + 1 = k
          ∧ i.pattern.covered ⊆ q.covered := by
  obtain ⟨-, himp, hk⟩ := (h.mem_iff i).mp (List.mem_of_getElem? hi)
  rw [h.used_iff hi]
  constructor
  · rintro ⟨j, v, hj, hopen⟩
    exact ⟨_, hopen, (literalCount_update_none hj).trans hk, covered_subset_update_none _ _⟩
  · rintro ⟨q, hq, hcount, hsub⟩
    have hn : i.pattern.numVars = q.numVars := himp.1.trans hq.1.symm
    have hne : i.pattern ≠ q := by
      rintro rfl
      omega
    obtain ⟨j, v, hj, hj'⟩ := exists_update_none_subset hn hsub hne
    exact ⟨j, v, hj, hq.of_covered_subset ((numVars_update _ _ _).trans hn) hj'⟩

end IsRound

/-! ## One round after another -/

/-- A round is one more than those after it. -/
theorem length_rounds_le_succ (round : List Implicant) :
    (rounds round).length ≤ (rounds (nextRound round)).length + 1 := by
  by_cases h : round = []
  · rw [h, rounds_nil]
    exact Nat.zero_le _
  · rw [rounds_eq_cons h, List.length_cons]

namespace IsRound

variable {n k : Nat} {S : List Nat} {round : List Implicant}

/-- **The rounds run out** after one for each literal, and one more. -/
theorem length_rounds_le (h : IsRound n k S round) (hkn : k ≤ n) :
    (rounds round).length ≤ k + 1 := by
  induction k generalizing round with
  | zero =>
    have hle := length_rounds_le_succ round
    rwa [h.nextRound_eq_nil, rounds_nil] at hle
  | succ k ih =>
    have hle := ih (h.next hkn) (by omega)
    exact (length_rounds_le_succ round).trans (Nat.add_le_add_right hle 1)

/-- **The round after `j` rounds** holds the implicants with `j` literals
less. -/
theorem iterate (h : IsRound n k S round) (hkn : k ≤ n) {j : Nat} (hj : j ≤ k) :
    IsRound n (k - j) S (nextRound^[j] round) := by
  induction j with
  | zero => exact h
  | succ j ih =>
    rw [Function.iterate_succ_apply']
    have hround := ih (by omega)
    rw [show k - j = k - (j + 1) + 1 by omega] at hround
    exact hround.next (by omega)

end IsRound

/-- **What a round starts with**: the first round, taken to the next as often as
rounds have gone before. Once a round is empty, so are all after it. -/
theorem getD_rounds (k : Nat) (round : List Implicant) :
    (rounds round).getD k [] = nextRound^[k] round := by
  induction k generalizing round with
  | zero =>
    by_cases h : round = []
    · rw [h, rounds_nil]
      rfl
    · rw [rounds_eq_cons h]
      rfl
  | succ k ih =>
    rw [Function.iterate_succ_apply, ← ih]
    by_cases h : round = []
    · rw [h, nextRound_nil, rounds_nil]
      rfl
    · rw [rounds_eq_cons h, List.getD_cons_succ]

/-! ## The rounds of a request -/

/-- **What a round does** that holds the implicants of a set with `k`
literals. -/
structure Combines (n k : Nat) (S : List Nat) (round : List Implicant) : Prop where
  /-- There is a mark for each place. -/
  length_used : (used round).length = round.length
  /-- A place is marked exactly when an implicant of the set covers what is
  there and has one literal less. -/
  used_iff : ∀ (place : Nat) (i : Implicant), round[place]? = some i →
    ((used round)[place]? = some true
      ↔ ∃ q : Pattern, q.IsImplicant n S ∧ q.literalCount + 1 = k
          ∧ i.pattern.covered ⊆ q.covered)
  /-- Whatever combines is in the next round, with the same minterms. -/
  merged_mem : ∀ m ∈ merges round, m.merged ∈ nextRound round
  /-- Comparing all pairs would make the same marks. -/
  marks_eq : marks round.length (allMerges round) = used round
  /-- Comparing all pairs would make the same next round. -/
  collect_eq : collect (allMerges round) = nextRound round

theorem IsRound.combines {n k : Nat} {S : List Nat} {round : List Implicant}
    (h : IsRound n k S round) : Combines n k S round where
  length_used := length_marks _ _
  used_iff _ _ := h.used_iff_exists_wider
  merged_mem m hm := (mem_collect fun _ => h.faithful_merged).mpr ⟨m, hm, rfl⟩
  marks_eq := h.marks_allMerges
  collect_eq := h.collect_allMerges

/-- **The rounds of a request, from the first to the last.** Every request in
range has at most one round more than it has variables, and its primes are
what stays unmarked in them. When `k` rounds have gone before, there is each
implicant of the minterms that may be covered that leaves `k` variables open,
once and with the minterms its pattern covers, and nothing else. The round
marks those of them that a wider implicant covers, and comparing all pairs
would make the same marks and the same next round. -/
theorem rounds_hold_implicants (r : Request) (h : r.InRange) :
    ∃ first, firstRound r = .ok first
      ∧ primeImplicants r = .ok ((((rounds first).flatMap unmerged).filter fun i =>
          i.minterms.any r.minterms.contains).mergeSort displayLe)
      ∧ (rounds first).length ≤ r.numVars + 1
      ∧ ∀ k ≤ r.numVars,
          IsRound r.numVars (r.numVars - k) r.allowed ((rounds first).getD k [])
            ∧ Combines r.numVars (r.numVars - k) r.allowed ((rounds first).getD k []) := by
  obtain ⟨first, hok, hfirst⟩ := firstRound_isRound h
  refine ⟨first, hok, ?_, hfirst.length_rounds_le le_rfl, fun k hk => ?_⟩
  · rw [primeImplicants, hok]
    rfl
  · rw [getD_rounds]
    have hround := hfirst.iterate le_rfl hk
    exact ⟨hround, hround.combines⟩

/-- The theorem at a request in which two pairs combine to the same
implicant. -/
theorem rounds_hold_implicants_square :
    (⟨3, [3, 0, 7, 1, 3], [5]⟩ : Request).InRange
      ∧ ∃ first, firstRound ⟨3, [3, 0, 7, 1, 3], [5]⟩ = .ok first
        ∧ primeImplicants ⟨3, [3, 0, 7, 1, 3], [5]⟩
            = .ok ((((rounds first).flatMap unmerged).filter fun i =>
                i.minterms.any [3, 0, 7, 1, 3].contains).mergeSort displayLe)
        ∧ (rounds first).length ≤ 4
        ∧ ∀ k ≤ 3,
            IsRound 3 (3 - k) [3, 0, 7, 1, 3, 5] ((rounds first).getD k [])
              ∧ Combines 3 (3 - k) [3, 0, 7, 1, 3, 5] ((rounds first).getD k []) :=
  have h : (⟨3, [3, 0, 7, 1, 3], [5]⟩ : Request).InRange := ⟨by decide, by decide, by decide⟩
  ⟨h, rounds_hold_implicants _ h⟩

/-- A function that is one everywhere needs all the rounds. -/
example : (firstRound ⟨2, [0, 1, 2, 3], []⟩).map (fun first => (rounds first).length) = .ok 3 := by
  cbv

end Karnaugh
