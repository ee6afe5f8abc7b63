import Karnaugh.Implicant

/-!
# Rounds of combination

A **round** is a list of implicants that fix equally many variables. All
pairs of it that differ in one variable combine, and what they combine to
makes the next round, each pattern once and in the order of patterns. The
next round has one fixed variable less, so the rounds come to an end: the
greatest number of literals gets smaller with each of them
(`literalBound_nextRound`), whatever implicants there are.

Only implicants that fix the same variables, of which one requires one
more of them to be one, can combine. So a round is sorted into **buckets**
first, by the positions that are fixed and by the number of ones, and only
neighbouring buckets are compared. Implicants are known by their places in
the round, and a place is marked when its implicant combines. What remains
unmarked is what no other implicant of the round combines with.
-/

namespace Karnaugh

/-- **Implicants that fix the same positions** and require equally many of
them to be one. -/
structure Bucket where
  /-- The fixed positions, as a mask. -/
  mask : Nat
  /-- The number of ones. -/
  ones : Nat
  /-- The implicants, with their places in the round. -/
  members : List (Implicant × Nat)

namespace Bucket

/-- Adds an implicant to the bucket with the given key, after its other
members. A bucket that is not there yet goes before those with a greater
mask, or with as great a mask and more ones. -/
def add (mask ones : Nat) (i : Implicant × Nat) : List Bucket → List Bucket
  | [] => [⟨mask, ones, [i]⟩]
  | b :: rest =>
    if b.mask = mask ∧ b.ones = ones then ⟨mask, ones, b.members ++ [i]⟩ :: rest
    else if mask < b.mask ∨ mask = b.mask ∧ ones < b.ones then ⟨mask, ones, [i]⟩ :: b :: rest
    else b :: add mask ones i rest

/-- **The buckets of a round.** -/
def sort (round : List Implicant) : List Bucket :=
  round.zipIdx.foldl (fun buckets i => add i.1.pattern.mask i.1.ones i buckets) []

/-- **An implicant is filed** in the bucket of a mask and a number of
ones. -/
def Filed (buckets : List Bucket) (mask ones : Nat) (i : Implicant × Nat) : Prop :=
  ∃ b ∈ buckets, b.mask = mask ∧ b.ones = ones ∧ i ∈ b.members

theorem filed_cons {b : Bucket} {buckets : List Bucket} {mask ones : Nat} {i : Implicant × Nat} :
    Filed (b :: buckets) mask ones i
      ↔ (b.mask = mask ∧ b.ones = ones ∧ i ∈ b.members) ∨ Filed buckets mask ones i := by
  simp [Filed]

/-- Adding an implicant files it, and changes nothing else. -/
theorem filed_add {buckets : List Bucket} {mask ones m o : Nat} {i j : Implicant × Nat} :
    Filed (add mask ones i buckets) m o j
      ↔ (m = mask ∧ o = ones ∧ j = i) ∨ Filed buckets m o j := by
  induction buckets with
  | nil => simp [add, Filed, eq_comm]
  | cons b rest ih =>
    rw [add]
    split
    · next h =>
      obtain ⟨rfl, rfl⟩ := h
      simp only [filed_cons, List.mem_append, List.mem_singleton]
      constructor
      · rintro (⟨rfl, rfl, hj | hj⟩ | hrest)
        · exact Or.inr (Or.inl ⟨rfl, rfl, hj⟩)
        · exact Or.inl ⟨rfl, rfl, hj⟩
        · exact Or.inr (Or.inr hrest)
      · rintro (⟨rfl, rfl, hj⟩ | ⟨rfl, rfl, hj⟩ | hrest)
        · exact Or.inl ⟨rfl, rfl, Or.inr hj⟩
        · exact Or.inl ⟨rfl, rfl, Or.inl hj⟩
        · exact Or.inr hrest
    · split
      · rw [filed_cons, List.mem_singleton, eq_comm (a := mask), eq_comm (a := ones)]
      · rw [filed_cons, filed_cons, ih, or_left_comm]

theorem filed_foldl {is : List (Implicant × Nat)} {buckets : List Bucket} {m o : Nat}
    {j : Implicant × Nat} :
    Filed (is.foldl (fun bs i => add i.1.pattern.mask i.1.ones i bs) buckets) m o j
      ↔ (j ∈ is ∧ j.1.pattern.mask = m ∧ j.1.ones = o) ∨ Filed buckets m o j := by
  induction is generalizing buckets with
  | nil => simp
  | cons i rest ih =>
    rw [List.foldl_cons, ih, filed_add, List.mem_cons]
    constructor
    · rintro (⟨hj, hm, ho⟩ | ⟨rfl, rfl, rfl⟩ | hf)
      · exact Or.inl ⟨Or.inr hj, hm, ho⟩
      · exact Or.inl ⟨Or.inl rfl, rfl, rfl⟩
      · exact Or.inr hf
    · rintro (⟨rfl | hj, hm, ho⟩ | hf)
      · exact Or.inr (Or.inl ⟨hm.symm, ho.symm, rfl⟩)
      · exact Or.inl ⟨hj, hm, ho⟩
      · exact Or.inr (Or.inr hf)

/-- **Every implicant of a round is filed under its own key**, and under no
other. -/
theorem filed_sort {round : List Implicant} {m o : Nat} {j : Implicant × Nat} :
    Filed (sort round) m o j ↔ j ∈ round.zipIdx ∧ j.1.pattern.mask = m ∧ j.1.ones = o := by
  unfold sort
  rw [filed_foldl]
  simp [Filed]

end Bucket

/-- **Two implicants of a round and what they combine to.** -/
structure Merge where
  /-- The implicant with fewer ones, and its place. -/
  lower : Implicant × Nat
  /-- The implicant with one more, and its place. -/
  upper : Implicant × Nat
  /-- What they combine to. -/
  merged : Implicant

/-- Everything that the members of two lists combine to. -/
def mergesBetween (lower upper : List (Implicant × Nat)) : List Merge :=
  lower.flatMap fun i =>
    upper.filterMap fun j => (i.1.combine? j.1).map fun merged => ⟨i, j, merged⟩

/-- **Everything that combines in a round.** -/
def merges (round : List Implicant) : List Merge :=
  let buckets := Bucket.sort round
  buckets.flatMap fun lower =>
    (buckets.filter fun upper => upper.mask == lower.mask && upper.ones == lower.ones + 1).flatMap
      fun upper => mergesBetween lower.members upper.members

theorem mem_mergesBetween {lower upper : List (Implicant × Nat)} {m : Merge} :
    m ∈ mergesBetween lower upper
      ↔ m.lower ∈ lower ∧ m.upper ∈ upper ∧ m.lower.1.combine? m.upper.1 = some m.merged := by
  simp only [mergesBetween, List.mem_flatMap, List.mem_filterMap, Option.map_eq_some_iff]
  constructor
  · rintro ⟨i, hi, j, hj, r, hr, rfl⟩
    exact ⟨hi, hj, hr⟩
  · rintro ⟨hi, hj, hr⟩
    exact ⟨m.lower, hi, m.upper, hj, m.merged, hr, rfl⟩

/-- **A pair is compared when its buckets are neighbours**, and combines if
it can. -/
theorem mem_merges {round : List Implicant} {m : Merge} :
    m ∈ merges round
      ↔ m.lower ∈ round.zipIdx ∧ m.upper ∈ round.zipIdx
          ∧ m.upper.1.pattern.mask = m.lower.1.pattern.mask
          ∧ m.upper.1.ones = m.lower.1.ones + 1
          ∧ m.lower.1.combine? m.upper.1 = some m.merged := by
  have hfiled : m ∈ merges round
      ↔ ∃ mask ones, Bucket.Filed (Bucket.sort round) mask ones m.lower
          ∧ Bucket.Filed (Bucket.sort round) mask (ones + 1) m.upper
          ∧ m.lower.1.combine? m.upper.1 = some m.merged := by
    simp only [merges, mem_mergesBetween, List.mem_flatMap, List.mem_filter, Bool.and_eq_true,
      beq_iff_eq, Bucket.Filed]
    constructor
    · rintro ⟨b, hb, c, ⟨hc, hmask, hones⟩, hl, hu, hr⟩
      exact ⟨b.mask, b.ones, ⟨b, hb, rfl, rfl, hl⟩, ⟨c, hc, hmask, hones, hu⟩, hr⟩
    · rintro ⟨_, _, ⟨b, hb, rfl, rfl, hl⟩, ⟨c, hc, hmask, hones, hu⟩, hr⟩
      exact ⟨b, hb, c, ⟨hc, hmask, hones⟩, hl, hu, hr⟩
  simp only [hfiled, Bucket.filed_sort]
  constructor
  · rintro ⟨_, _, ⟨hl, rfl, rfl⟩, ⟨hu, hmask, hones⟩, hr⟩
    exact ⟨hl, hu, hmask, hones, hr⟩
  · rintro ⟨hl, hu, hmask, hones, hr⟩
    exact ⟨_, _, ⟨hl, rfl, rfl⟩, ⟨hu, hmask, hones⟩, hr⟩

/-! ## What comes of a round -/

/-- Adds an implicant in the order of patterns, unless there is one with its
pattern. -/
def addNew (round : List Implicant) (i : Implicant) : List Implicant :=
  if round.any fun j => j.pattern == i.pattern then round
  else
    round.takeWhile (fun j => !i.pattern.le j.pattern) ++
      i :: round.dropWhile (fun j => !i.pattern.le j.pattern)

/-- **What has combined**, each pattern once. -/
def collect (found : List Merge) : List Implicant :=
  (found.map Merge.merged).foldl addNew []

/-- **The places that have combined**: a mark for each place of a round. -/
def marks (size : Nat) (found : List Merge) : List Bool :=
  found.foldl (fun marks m => (marks.set m.lower.2 true).set m.upper.2 true)
    (List.replicate size false)

/-- **The round after a round.** -/
def nextRound (round : List Implicant) : List Implicant :=
  collect (merges round)

/-- Which places of a round have combined. -/
def used (round : List Implicant) : List Bool :=
  marks round.length (merges round)

/-- The implicants of a round that combine with no other. -/
def unmerged (round : List Implicant) : List Implicant :=
  ((round.zip (used round)).filter fun p => !p.2).map Prod.fst

theorem mem_of_mem_addNew {round : List Implicant} {i j : Implicant} (h : j ∈ addNew round i) :
    j = i ∨ j ∈ round := by
  unfold addNew at h
  split at h
  · exact Or.inr h
  · rw [List.mem_append, List.mem_cons] at h
    rcases h with h | h | h
    · exact Or.inr ((List.takeWhile_sublist _).subset h)
    · exact Or.inl h
    · exact Or.inr ((List.dropWhile_sublist _).subset h)

/-- Only what has combined is collected. -/
theorem exists_of_mem_collect {found : List Merge} {i : Implicant} (h : i ∈ collect found) :
    ∃ m ∈ found, m.merged = i := by
  have hall : ∀ j ∈ collect found, j ∈ found.map Merge.merged := by
    refine List.foldlRecOn (motive := fun round => ∀ j ∈ round, j ∈ found.map Merge.merged)
      _ addNew nofun fun round ih k hk j hj => ?_
    rcases mem_of_mem_addNew hj with rfl | hj
    · exact hk
    · exact ih j hj
  exact List.mem_map.mp (hall i h)

/-! ## All rounds -/

/-- A bound on the literals of a round: one more than the greatest number of
them, and zero for an empty round. -/
def literalBound (round : List Implicant) : Nat :=
  round.foldr (fun i bound => max (i.literalCount + 1) bound) 0

theorem lt_literalBound {round : List Implicant} {i : Implicant} (h : i ∈ round) :
    i.literalCount < literalBound round := by
  induction round with
  | nil => cases h
  | cons j rest ih =>
    show i.literalCount < max (j.literalCount + 1) (literalBound rest)
    rcases List.mem_cons.mp h with rfl | h
    · omega
    · have hrest := ih h
      omega

theorem literalBound_le {round : List Implicant} {bound : Nat}
    (h : ∀ i ∈ round, i.literalCount < bound) : literalBound round ≤ bound := by
  induction round with
  | nil => exact Nat.zero_le bound
  | cons j rest ih =>
    show max (j.literalCount + 1) (literalBound rest) ≤ bound
    have hj := h j List.mem_cons_self
    have hrest := ih fun i hi => h i (List.mem_cons_of_mem j hi)
    omega

/-- What two implicants of a round combine to has one literal less than one
of the round. -/
theorem literalCount_of_mem_nextRound {round : List Implicant} {i : Implicant}
    (h : i ∈ nextRound round) : ∃ j ∈ round, i.literalCount + 1 = j.literalCount := by
  obtain ⟨m, hm, rfl⟩ := exists_of_mem_collect h
  obtain ⟨hl, -, -, -, hr⟩ := mem_merges.mp hm
  exact ⟨m.lower.1, List.fst_mem_of_mem_zipIdx hl, Implicant.literalCount_combine? hr⟩

/-- **The literals run out**: each round has a smaller bound than the one
before. -/
theorem literalBound_nextRound {round : List Implicant} (h : round ≠ []) :
    literalBound (nextRound round) < literalBound round := by
  obtain ⟨j, hj⟩ := List.exists_mem_of_ne_nil round h
  have hpos := lt_literalBound hj
  have hle : literalBound (nextRound round) ≤ literalBound round - 1 := by
    refine literalBound_le fun i hi => ?_
    obtain ⟨k, hk, hcount⟩ := literalCount_of_mem_nextRound hi
    have hlt := lt_literalBound hk
    omega
  omega

/-- **The rounds from a given one on**, up to the last that is not empty. -/
def rounds (round : List Implicant) : List (List Implicant) :=
  if round.isEmpty then [] else round :: rounds (nextRound round)
termination_by literalBound round
decreasing_by exact literalBound_nextRound (by simp_all)

/-- **What stays uncombined** in a round and the ones after it. -/
def largest (round : List Implicant) : List Implicant :=
  (rounds round).flatMap unmerged

end Karnaugh
