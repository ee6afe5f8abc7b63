import Karnaugh.Minimize.Rounds
import Karnaugh.Proofs.Cubes

/-!
# The rounds of combination

A round holds the implicants of a set with a given number of literals.
This module follows it through one combination and then through all of
them.

* Sorting into buckets loses nothing, so comparing neighbouring buckets
  finds every pair that differs in one requirement (`mem_merges_iff`).
* What has combined is collected once for each pattern (`nodup_collect`), and
  if its minterms are those of its pattern, none of it is lost
  (`mem_collect`). A place is marked exactly when it has combined
  (`getElem?_marks`).
* If a round holds all implicants with `k + 1` literals, the next one holds
  all with `k` (`IsRound.next`), because an implicant with an open position
  is what the two that fix this position merge to.
* What stays unmerged is what cannot be opened any further
  (`IsRound.mem_unmerged`), and that is what a prime implicant is
  (`Pattern.isPrime_iff`).

Over all rounds nothing is lost and nothing else is found
(`IsRound.largest_spec`).
-/

namespace Karnaugh

/-! ## The pairs that combine -/

namespace Pattern

/-- A row as a number does not see a change that `f` does not see. -/
theorem number_set {f : Option Bool → Bool} {bits : List (Option Bool)} {i : Nat}
    {r s : Option Bool} (hi : bits[i]? = some s) (hf : f r = f s) :
    number f (bits.set i r) = number f bits := by
  induction bits generalizing i with
  | nil => rfl
  | cons t rest ih =>
    cases i with
    | zero =>
      rw [List.getElem?_cons_zero, Option.some.injEq] at hi
      rw [List.set_cons_zero, number, number, hf, hi]
    | succ i => rw [List.set_cons_succ, number, number, List.length_set, ih hi]

theorem mask_update {p : Pattern} {i : Nat} {v w : Bool} (h : p.bits[i]? = some (some v)) :
    (p.update i (some w)).mask = p.mask :=
  number_set h rfl

/-- Reversing a required zero adds a one. -/
theorem ones_update_true {p : Pattern} {i : Nat} (h : p.bits[i]? = some (some false)) :
    (p.update i (some true)).ones = p.ones + 1 := by
  obtain ⟨hi, hv⟩ := List.getElem?_eq_some_iff.mp h
  unfold ones
  rw [bits_update, List.count_set hi, hv]
  simp

/-- Reversing a required one takes it away. -/
theorem ones_update_false {p : Pattern} {i : Nat} (h : p.bits[i]? = some (some true)) :
    (p.update i (some false)).ones + 1 = p.ones := by
  have hi := getElem?_update_self h (some false)
  rw [← ones_update_true hi, update_update, update_self h]

end Pattern

open Pattern

namespace Implicant

/-- The minterms of the implicant are those that its pattern covers. -/
def Faithful (i : Implicant) : Prop := i.minterms = i.pattern.covered

theorem faithful_ofPattern (p : Pattern) : (ofPattern p).Faithful := rfl

theorem Faithful.eq_ofPattern {i : Implicant} (h : i.Faithful) : i = ofPattern i.pattern := by
  cases i; exact congrArg _ h

/-- Faithful implicants are known by their patterns. -/
theorem Faithful.ext {i j : Implicant} (hi : i.Faithful) (hj : j.Faithful)
    (h : i.pattern = j.pattern) : i = j := by
  rw [hi.eq_ofPattern, hj.eq_ofPattern, h]

theorem combine?_eq_some_iff {i j c : Implicant} :
    i.combine? j = some c
      ↔ ∃ (k : Nat) (v : Bool), i.pattern.bits[k]? = some (some v)
          ∧ j.pattern = i.pattern.update k (some !v)
          ∧ c = ⟨i.pattern.update k none, unionAscending i.minterms j.minterms⟩ := by
  unfold combine?
  rw [Option.map_eq_some_iff]
  simp only [merge?_eq_some_iff]
  constructor
  · rintro ⟨_, ⟨k, v, hk, hj, rfl⟩, rfl⟩
    exact ⟨k, v, hk, hj, rfl⟩
  · rintro ⟨k, v, hk, hj, rfl⟩
    exact ⟨_, ⟨k, v, hk, hj, rfl⟩, rfl⟩

end Implicant

open Implicant

/-- **A round combines exactly the pairs that differ in one requirement**:
the lower implicant requires a zero where the upper one requires a one. -/
theorem mem_merges_iff {round : List Implicant} {m : Merge} :
    m ∈ merges round
      ↔ m.lower ∈ round.zipIdx ∧ m.upper ∈ round.zipIdx
          ∧ ∃ k : Nat, m.lower.1.pattern.bits[k]? = some (some false)
              ∧ m.upper.1.pattern = m.lower.1.pattern.update k (some true)
              ∧ m.merged = ⟨m.lower.1.pattern.update k none,
                  unionAscending m.lower.1.minterms m.upper.1.minterms⟩ := by
  simp only [mem_merges, combine?_eq_some_iff]
  constructor
  · rintro ⟨hl, hu, -, hones, k, v, hk, hup, hm⟩
    cases v with
    | false => exact ⟨hl, hu, k, hk, hup, hm⟩
    | true =>
      -- the upper implicant would have fewer ones
      have hfew := ones_update_false hk
      unfold Implicant.ones at hones
      rw [hup] at hones
      simp only [Bool.not_true] at hones
      omega
  · rintro ⟨hl, hu, k, hk, hup, hm⟩
    refine ⟨hl, hu, ?_, ?_, k, false, hk, hup, hm⟩
    · rw [hup, mask_update hk]
    · rw [Implicant.ones, hup, ones_update_true hk]
      rfl

/-- Faithful implicants combine to a faithful one. -/
theorem faithful_merged {round : List Implicant} (hr : ∀ i ∈ round, i.Faithful) {m : Merge}
    (hm : m ∈ merges round) : m.merged.Faithful := by
  obtain ⟨hl, hu, k, hk, hup, hmerged⟩ := mem_merges_iff.mp hm
  have hklt : k < m.lower.1.pattern.numVars := (List.getElem?_eq_some_iff.mp hk).1
  have hlower := hr _ (List.fst_mem_of_mem_zipIdx hl)
  have hupper := hr _ (List.fst_mem_of_mem_zipIdx hu)
  rw [Implicant.Faithful, hmerged, hlower, hupper]
  refine eq_of_ascending (pairwise_unionAscending (pairwise_covered _)) (pairwise_covered _) ?_
  intro n
  rw [mem_unionAscending, hup, mem_covered_update_none hklt false, update_self hk]
  rfl

/-! ## What is collected -/

/-- An implicant with a new pattern comes in between those that are there. -/
theorem addNew_perm {round : List Implicant} {i : Implicant}
    (h : i.pattern ∉ round.map Implicant.pattern) : (addNew round i).Perm (i :: round) := by
  have hno : ¬(round.any fun j => j.pattern == i.pattern) = true := fun hany => by
    obtain ⟨j, hj, hji⟩ := List.any_eq_true.mp hany
    exact h (List.mem_map.mpr ⟨j, hj, beq_iff_eq.mp hji⟩)
  rw [addNew, if_neg hno]
  exact List.perm_middle.trans (by rw [List.takeWhile_append_dropWhile])

/-- An implicant whose pattern is there already changes nothing. -/
theorem addNew_eq_self {round : List Implicant} {i : Implicant}
    (h : i.pattern ∈ round.map Implicant.pattern) : addNew round i = round := by
  obtain ⟨j, hj, hji⟩ := List.mem_map.mp h
  have hany : (round.any fun j => j.pattern == i.pattern) = true :=
    List.any_eq_true.mpr ⟨j, hj, beq_iff_eq.mpr hji⟩
  rw [addNew, if_pos hany]

/-- Adding an implicant keeps one for each pattern. -/
theorem nodup_addNew {round : List Implicant} {i : Implicant}
    (h : (round.map Implicant.pattern).Nodup) :
    ((addNew round i).map Implicant.pattern).Nodup := by
  by_cases hi : i.pattern ∈ round.map Implicant.pattern
  · rwa [addNew_eq_self hi]
  · rw [((addNew_perm hi).map Implicant.pattern).nodup_iff, List.map_cons]
    exact List.nodup_cons.mpr ⟨hi, h⟩

theorem mem_map_addNew {round : List Implicant} {i : Implicant} {p : Pattern} :
    p ∈ (addNew round i).map Implicant.pattern
      ↔ p = i.pattern ∨ p ∈ round.map Implicant.pattern := by
  by_cases hi : i.pattern ∈ round.map Implicant.pattern
  · rw [addNew_eq_self hi]
    exact ⟨Or.inr, fun h => h.elim (fun hp => hp ▸ hi) id⟩
  · rw [((addNew_perm hi).map Implicant.pattern).mem_iff, List.map_cons, List.mem_cons]

/-- **Each pattern is collected once.** -/
theorem nodup_collect (found : List Merge) : ((collect found).map Implicant.pattern).Nodup :=
  List.foldlRecOn (motive := fun round => (round.map Implicant.pattern).Nodup) _ addNew
    List.nodup_nil fun _ h _ _ => nodup_addNew h

/-- **Every pattern is collected.** -/
theorem mem_map_collect {found : List Merge} {p : Pattern} :
    p ∈ (collect found).map Implicant.pattern ↔ ∃ m ∈ found, m.merged.pattern = p := by
  have hfoldl : ∀ (is round : List Implicant),
      p ∈ (is.foldl addNew round).map Implicant.pattern
        ↔ p ∈ is.map Implicant.pattern ∨ p ∈ round.map Implicant.pattern := by
    intro is
    induction is with
    | nil => simp
    | cons i rest ih =>
      intro round
      rw [List.foldl_cons, ih, mem_map_addNew, List.map_cons, List.mem_cons, or_left_comm,
        or_assoc]
  rw [collect, hfoldl, List.map_map]
  simp

/-- **Where the implicants are faithful, nothing else is lost**: one that is not
collected is there already. -/
theorem mem_collect {found : List Merge} (hf : ∀ m ∈ found, m.merged.Faithful) {i : Implicant} :
    i ∈ collect found ↔ ∃ m ∈ found, m.merged = i := by
  refine ⟨exists_of_mem_collect, ?_⟩
  rintro ⟨m, hm, rfl⟩
  obtain ⟨j, hj, hjm⟩ := List.mem_map.mp (mem_map_collect.mpr ⟨m, hm, rfl⟩)
  obtain ⟨m', hm', rfl⟩ := exists_of_mem_collect hj
  rwa [← (hf m' hm').ext (hf m hm) hjm]

/-! ## Marks -/

@[simp]
theorem length_marks (size : Nat) (found : List Merge) : (marks size found).length = size :=
  List.foldlRecOn (motive := fun ms : List Bool => ms.length = size) _ _ List.length_replicate
    fun _ h _ _ => by rw [List.length_set, List.length_set, h]

/-- **A place is marked when it has combined.** -/
theorem getElem?_marks {size place : Nat} {found : List Merge} :
    (marks size found)[place]? = some true
      ↔ place < size ∧ ∃ m ∈ found, m.lower.2 = place ∨ m.upper.2 = place := by
  have hfoldl : ∀ ms : List Bool,
      (found.foldl (fun ms m => (ms.set m.lower.2 true).set m.upper.2 true) ms)[place]? = some true
        ↔ (place < ms.length ∧ ∃ m ∈ found, m.lower.2 = place ∨ m.upper.2 = place)
          ∨ ms[place]? = some true := by
    induction found with
    | nil => simp
    | cons m rest ih =>
      intro ms
      rw [List.foldl_cons, ih]
      simp only [List.length_set, List.getElem?_set, List.exists_mem_cons_iff]
      grind
  rw [marks, hfoldl]
  simp [List.getElem?_replicate]

/-- What is unmerged has a place that is not marked. -/
theorem mem_unmerged_iff {round : List Implicant} {i : Implicant} :
    i ∈ unmerged round
      ↔ ∃ place : Nat, round[place]? = some i ∧ ¬(used round)[place]? = some true := by
  have hlength : (used round).length = round.length := length_marks _ _
  constructor
  · intro hi
    obtain ⟨⟨j, u⟩, hmem, rfl⟩ := List.mem_map.mp hi
    obtain ⟨hzip, hfalse⟩ := List.mem_filter.mp hmem
    obtain ⟨place, hplace⟩ := List.getElem?_of_mem hzip
    obtain ⟨hj, hu⟩ := List.getElem?_zip_eq_some.mp hplace
    refine ⟨place, hj, ?_⟩
    rw [hu]
    simpa using hfalse
  · rintro ⟨place, hi, hno⟩
    have hlt : place < (used round).length := hlength ▸ (List.getElem?_eq_some_iff.mp hi).1
    have hu := List.getElem?_eq_getElem hlt
    have hzip : (i, (used round)[place]) ∈ round.zip (used round) :=
      List.mem_of_getElem? (List.getElem?_zip_eq_some.mpr ⟨hi, hu⟩)
    rw [hu] at hno
    exact List.mem_map.mpr ⟨_, List.mem_filter.mpr ⟨hzip, by simpa using hno⟩, rfl⟩

theorem nodup_unmerged {round : List Implicant} (h : round.Nodup) : (unmerged round).Nodup := by
  have hlength : round.length ≤ (used round).length := (length_marks _ _).ge
  have hsub := (List.filter_sublist (p := fun p : Implicant × Bool => !p.2)
    (l := round.zip (used round))).map Prod.fst
  rw [List.map_fst_zip hlength] at hsub
  exact h.sublist hsub

/-! ## Implicants and primes of a set -/

namespace Pattern

/-- **An implicant of a set** on `n` variables: all it covers is in the
set. -/
def IsImplicant (n : Nat) (S : List Nat) (p : Pattern) : Prop :=
  p.numVars = n ∧ p.covered ⊆ S

/-- **A prime implicant of a set**: an implicant such that none covers
strictly more. -/
def IsPrime (n : Nat) (S : List Nat) (p : Pattern) : Prop :=
  p.IsImplicant n S ∧ ∀ q : Pattern, q.IsImplicant n S → p.covered ⊆ q.covered → q = p

variable {n : Nat} {S : List Nat} {p : Pattern}

theorem IsImplicant.of_covered_subset {q : Pattern} (hq : q.IsImplicant n S)
    (h : p.numVars = q.numVars) (hsub : p.covered ⊆ q.covered) : p.IsImplicant n S :=
  ⟨h.trans hq.1, List.Subset.trans hsub hq.2⟩

/-- **An implicant is prime when none of its positions can be opened.** -/
theorem isPrime_iff :
    p.IsPrime n S
      ↔ p.IsImplicant n S ∧ ¬∃ (k : Nat) (v : Bool), p.bits[k]? = some (some v)
          ∧ (p.update k none).IsImplicant n S := by
  constructor
  · rintro ⟨himp, hmax⟩
    refine ⟨himp, ?_⟩
    rintro ⟨k, v, hk, hopen⟩
    have heq := hmax _ hopen (covered_subset_update_none p k)
    have hcount := literalCount_update_none hk
    rw [heq] at hcount
    omega
  · rintro ⟨himp, hno⟩
    refine ⟨himp, fun q hq hsub => ?_⟩
    by_contra hne
    have hn : p.numVars = q.numVars := himp.1.trans hq.1.symm
    obtain ⟨k, v, hk, hk'⟩ := exists_update_none_subset hn hsub (Ne.symm hne)
    exact hno ⟨k, v, hk, hq.of_covered_subset ((numVars_update _ _ _).trans hn) hk'⟩

/-- **Every implicant is below a prime one** that has no more literals. -/
theorem IsImplicant.exists_isPrime (h : p.IsImplicant n S) :
    ∃ q : Pattern, q.IsPrime n S ∧ p.covered ⊆ q.covered
      ∧ q.literalCount ≤ p.literalCount := by
  induction hc : p.literalCount using Nat.strong_induction_on generalizing p with
  | _ c ih =>
    by_cases hp : p.IsPrime n S
    · exact ⟨p, hp, List.Subset.refl _, hc.le⟩
    · rw [isPrime_iff, not_and_not_right] at hp
      obtain ⟨k, v, hk, hopen⟩ := hp h
      have hcount := literalCount_update_none hk
      obtain ⟨q, hq, hsub, hle⟩ := ih _ (by omega) hopen rfl
      exact ⟨q, hq, List.Subset.trans (covered_subset_update_none p k) hsub, by omega⟩

end Pattern

/-! ## One round, and the next -/

/-- **What a round holds**: each implicant of the set with `k` literals
once, with the minterms its pattern covers. -/
structure IsRound (n k : Nat) (S : List Nat) (round : List Implicant) : Prop where
  /-- No implicant is there twice. -/
  nodup : round.Nodup
  /-- The implicants with `k` literals are there, and nothing else. -/
  mem_iff : ∀ i : Implicant, i ∈ round
    ↔ i.Faithful ∧ i.pattern.IsImplicant n S ∧ i.pattern.literalCount = k

namespace IsRound

variable {n k : Nat} {S : List Nat} {round : List Implicant}

theorem faithful (h : IsRound n k S round) {i : Implicant} (hi : i ∈ round) : i.Faithful :=
  ((h.mem_iff i).mp hi).1

theorem mem_ofPattern (h : IsRound n k S round) {p : Pattern} :
    ofPattern p ∈ round ↔ p.IsImplicant n S ∧ p.literalCount = k := by
  rw [h.mem_iff, and_iff_right (faithful_ofPattern p)]
  rfl

/-- **What two implicants of a round merge to** is an implicant with one
literal less. -/
theorem merged_isImplicant (h : IsRound n k S round) {m : Merge} (hm : m ∈ merges round) :
    m.merged.pattern.IsImplicant n S ∧ m.merged.pattern.literalCount + 1 = k := by
  obtain ⟨hl, hu, j, hj, hup, hmerged⟩ := mem_merges_iff.mp hm
  obtain ⟨-, ⟨hn, hsubl⟩, hk⟩ := (h.mem_iff _).mp (List.fst_mem_of_mem_zipIdx hl)
  obtain ⟨-, ⟨-, hsubu⟩, -⟩ := (h.mem_iff _).mp (List.fst_mem_of_mem_zipIdx hu)
  have hjlt : j < m.lower.1.pattern.numVars := (List.getElem?_eq_some_iff.mp hj).1
  rw [hmerged]
  refine ⟨⟨(numVars_update _ _ _).trans hn, fun x hx => ?_⟩, ?_⟩
  · rcases (mem_covered_update_none hjlt false).mp hx with hx | hx
    · exact hsubl (update_self hj ▸ hx)
    · exact hsubu (hup ▸ hx)
  · exact (literalCount_update_none hj).trans hk

/-- **An implicant with an open position is merged** from the two that fix
that position. -/
theorem exists_merge (h : IsRound n (k + 1) S round) {p : Pattern} {j : Nat}
    (hp : p.IsImplicant n S) (hk : p.literalCount = k) (hj : p.bits[j]? = some none) :
    ∃ m ∈ merges round, m.lower.1.pattern = p.update j (some false)
      ∧ m.upper.1.pattern = p.update j (some true) ∧ m.merged.pattern = p := by
  have hmem : ∀ v : Bool, ∃ place : Nat,
      (ofPattern (p.update j (some v)), place) ∈ round.zipIdx := by
    intro v
    have hin : ofPattern (p.update j (some v)) ∈ round := by
      rw [h.mem_ofPattern]
      refine ⟨hp.of_covered_subset (numVars_update _ _ _) ?_, ?_⟩
      · have hsub := covered_subset_update_none (p.update j (some v)) j
        rwa [update_update, update_self hj] at hsub
      · rw [literalCount_update_some v hj, hk]
    obtain ⟨place, hplace⟩ := List.getElem?_of_mem hin
    exact ⟨place, List.mk_mem_zipIdx_iff_getElem?.mpr hplace⟩
  obtain ⟨low, hlow⟩ := hmem false
  obtain ⟨high, hhigh⟩ := hmem true
  let lower := ofPattern (p.update j (some false))
  let upper := ofPattern (p.update j (some true))
  let merged : Implicant :=
    ⟨lower.pattern.update j none, unionAscending lower.minterms upper.minterms⟩
  refine ⟨⟨(lower, low), (upper, high), merged⟩,
    mem_merges_iff.mpr ⟨hlow, hhigh, j, getElem?_update_self hj (some false), ?_, rfl⟩,
    rfl, rfl, ?_⟩
  · exact (update_update _ _ _ _).symm
  · exact (update_update _ _ _ _).trans (update_self hj)

theorem faithful_merged (h : IsRound n k S round) {m : Merge} (hm : m ∈ merges round) :
    m.merged.Faithful :=
  Karnaugh.faithful_merged (fun _ => h.faithful) hm

/-- **The next round** holds all implicants with one literal less. -/
theorem next (h : IsRound n (k + 1) S round) (hkn : k < n) :
    IsRound n k S (nextRound round) := by
  refine ⟨(nodup_collect _).of_map _, fun i => ?_⟩
  rw [nextRound, mem_collect fun _ => h.faithful_merged]
  constructor
  · rintro ⟨m, hm, rfl⟩
    obtain ⟨himp, hcount⟩ := h.merged_isImplicant hm
    exact ⟨h.faithful_merged hm, himp, by omega⟩
  · rintro ⟨hi, himp, hk⟩
    obtain ⟨j, hj⟩ := exists_open (p := i.pattern) (by rw [hk, himp.1]; exact hkn)
    obtain ⟨m, hm, -, -, hmi⟩ := h.exists_merge himp hk hj
    exact ⟨m, hm, (h.faithful_merged hm).ext hi hmi⟩

/-- Nothing comes after the implicants without literals. -/
theorem nextRound_eq_nil (h : IsRound n 0 S round) : nextRound round = [] := by
  refine List.eq_nil_iff_forall_not_mem.mpr fun i hi => ?_
  obtain ⟨m, hm, -⟩ := exists_of_mem_collect hi
  exact absurd (h.merged_isImplicant hm).2 (Nat.succ_ne_zero _)

/-- A pattern has one place in a round. -/
theorem place_eq (h : IsRound n k S round) {i j : Implicant} {place other : Nat}
    (hi : round[place]? = some i) (hj : round[other]? = some j) (heq : j.pattern = i.pattern) :
    other = place := by
  have hij : j = i :=
    (h.faithful (List.mem_of_getElem? hj)).ext (h.faithful (List.mem_of_getElem? hi)) heq
  refine (List.getElem?_inj (List.getElem?_eq_some_iff.mp hj).1 h.nodup).mp ?_
  rw [hj, hi, hij]

/-- **An implicant has merged exactly when it can be opened**: some pattern
with one literal less covers it and is still an implicant. -/
theorem used_iff (h : IsRound n k S round) {i : Implicant} {place : Nat}
    (hi : round[place]? = some i) :
    (used round)[place]? = some true
      ↔ ∃ (j : Nat) (v : Bool), i.pattern.bits[j]? = some (some v)
          ∧ (i.pattern.update j none).IsImplicant n S := by
  rw [used, getElem?_marks, and_iff_right (List.getElem?_eq_some_iff.mp hi).1]
  constructor
  · rintro ⟨m, hm, hplace⟩
    have himp := (h.merged_isImplicant hm).1
    obtain ⟨hl, hu, j, hj, hup, hmerged⟩ := mem_merges_iff.mp hm
    rw [hmerged] at himp
    rw [List.mem_zipIdx_iff_getElem?] at hl hu
    rcases hplace with rfl | rfl
    · rw [hl, Option.some.injEq] at hi
      exact ⟨j, false, hi ▸ hj, hi ▸ himp⟩
    · rw [hu, Option.some.injEq] at hi
      refine ⟨j, true, ?_, ?_⟩
      · rw [← hi, hup]
        exact getElem?_update_self hj (some true)
      · rw [← hi, hup, update_update]
        exact himp
  · rintro ⟨j, v, hj, hopen⟩
    have hcount := literalCount_update_none hj
    obtain ⟨-, -, hk⟩ := (h.mem_iff i).mp (List.mem_of_getElem? hi)
    have hnone := getElem?_update_self hj none
    -- the round before the first has no literals to lose
    obtain ⟨k, rfl⟩ : ∃ k', k = k' + 1 := ⟨_, (hcount.trans hk).symm⟩
    obtain ⟨m, hm, hlow, hup, -⟩ := h.exists_merge hopen (by omega) hnone
    obtain ⟨hl, hu, -⟩ := mem_merges_iff.mp hm
    rw [List.mem_zipIdx_iff_getElem?] at hl hu
    rw [update_update] at hlow hup
    refine ⟨m, hm, ?_⟩
    cases v with
    | false => exact Or.inl (h.place_eq hi hl (hlow.trans (update_self hj)))
    | true => exact Or.inr (h.place_eq hi hu (hup.trans (update_self hj)))

/-- **What does not merge is prime.** -/
theorem mem_unmerged (h : IsRound n k S round) {i : Implicant} :
    i ∈ unmerged round
      ↔ i.Faithful ∧ i.pattern.IsPrime n S ∧ i.pattern.literalCount = k := by
  rw [mem_unmerged_iff]
  constructor
  · rintro ⟨place, hi, hno⟩
    rw [h.used_iff hi] at hno
    obtain ⟨hf, himp, hk⟩ := (h.mem_iff i).mp (List.mem_of_getElem? hi)
    exact ⟨hf, isPrime_iff.mpr ⟨himp, hno⟩, hk⟩
  · rintro ⟨hf, hprime, hk⟩
    obtain ⟨himp, hno⟩ := isPrime_iff.mp hprime
    obtain ⟨place, hi⟩ := List.getElem?_of_mem ((h.mem_iff i).mpr ⟨hf, himp, hk⟩)
    exact ⟨place, hi, by rw [h.used_iff hi]; exact hno⟩

end IsRound

/-! ## All rounds -/

theorem nextRound_nil : nextRound [] = [] := rfl

theorem rounds_nil : rounds [] = [] := by
  rw [rounds]
  rfl

theorem rounds_eq_cons {round : List Implicant} (h : round ≠ []) :
    rounds round = round :: rounds (nextRound round) := by
  rw [rounds, if_neg (by rwa [List.isEmpty_iff])]

theorem largest_nil : largest [] = [] := by
  rw [largest, rounds_nil]
  rfl

/-- An empty round is no exception: nothing comes of it. -/
theorem largest_eq (round : List Implicant) :
    largest round = unmerged round ++ largest (nextRound round) := by
  by_cases h : round = []
  · rw [h, nextRound_nil, largest_nil]
    rfl
  · rw [largest, rounds_eq_cons h]
    rfl

/-- **All rounds together find the primes**: from the round of the
implicants with `k` literals on, each prime implicant with at most `k`
literals is found once. -/
theorem IsRound.largest_spec {n k : Nat} {S : List Nat} {round : List Implicant}
    (h : IsRound n k S round) (hkn : k ≤ n) :
    (largest round).Nodup
      ∧ ∀ i : Implicant, i ∈ largest round
          ↔ i.Faithful ∧ i.pattern.IsPrime n S ∧ i.pattern.literalCount ≤ k := by
  have hnodup : (unmerged round).Nodup := nodup_unmerged h.nodup
  -- on the number of literals; the last round has none that could be opened
  induction k generalizing round with
  | zero =>
    rw [largest_eq, h.nextRound_eq_nil, largest_nil, List.append_nil]
    refine ⟨hnodup, fun i => ?_⟩
    rw [h.mem_unmerged, Nat.le_zero]
  | succ k ih =>
    have hnext := h.next hkn
    obtain ⟨hrest, hmem⟩ := ih hnext (by omega) (nodup_unmerged hnext.nodup)
    rw [largest_eq]
    refine ⟨List.nodup_append.mpr ⟨hnodup, hrest, ?_⟩, fun i => ?_⟩
    · -- the later rounds have fewer literals
      rintro i hi j hj rfl
      obtain ⟨-, -, hk⟩ := h.mem_unmerged.mp hi
      obtain ⟨-, -, hle⟩ := (hmem i).mp hj
      omega
    · rw [List.mem_append, h.mem_unmerged, hmem]
      constructor
      · rintro (⟨hf, hp, hk⟩ | ⟨hf, hp, hk⟩)
        · exact ⟨hf, hp, hk.le⟩
        · exact ⟨hf, hp, by omega⟩
      · rintro ⟨hf, hp, hk⟩
        rcases Nat.lt_or_eq_of_le hk with hlt | heq
        · exact Or.inr ⟨hf, hp, by omega⟩
        · exact Or.inl ⟨hf, hp, heq⟩

end Karnaugh
