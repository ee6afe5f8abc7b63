import Karnaugh.Proofs.Cubes
import Karnaugh.Proofs.GrayCode
import Karnaugh.Region.Basic

/-!
# Spans and the indices they stand for

An ascending list is told by its ends and its gaps: it has every index from
its first to its last that is in none of its gaps (`AxisSpan.mem_iff_gaps`),
and it is shorter than that range by what the gaps leave out
(`AxisSpan.length_add_missing`). So a list that is as long as its range has no
gap, and a list with one gap that starts and ends with the axis has just two
pieces. This is what `AxisSpan.classify` asks for, and the span it finds has
the indices of the list (`AxisSpan.classify_spec`).

On the short axes of a map the spans whose length is a power of two are
moreover the indices whose Gray codes meet some row of requirements
(`AxisSpan.spans_iff_meets`). It takes an axis of more than four indices for
this to fail.
-/

namespace Karnaugh

namespace Word

theorem size_eq : size = 2 ^ 64 := rfl

theorem checked_of_lt {result : Int} {n : Nat} (h : result = n) (hn : n < 2 ^ 64) :
    checked result = some n := by
  rw [checked, size_eq, if_pos (by omega), h, Int.toNat_natCast]

theorem checked_of_le {result : Int} {n : Nat} (h : result = n) (hn : 2 ^ 64 ≤ n) :
    checked result = none := by
  rw [checked, size_eq, if_neg (by omega)]

end Word

namespace AxisSpan

open Pattern

/-! ## Ascending lists -/

/-- How many indices gaps leave out. -/
def missing (gs : List (Nat × Nat)) : Nat := (gs.map fun g => g.2 - g.1 - 1).sum

/-- The gaps of a list of which the first two indices are known. -/
theorem gaps_cons_cons (a b : Nat) (rest : List Nat) :
    gaps (a :: b :: rest) = (if 1 < b - a then [(a, b)] else []) ++ gaps (b :: rest) := rfl

theorem mem_gaps_cons_cons {a b : Nat} {rest : List Nat} {g : Nat × Nat} :
    g ∈ gaps (a :: b :: rest) ↔ (1 < b - a ∧ g = (a, b)) ∨ g ∈ gaps (b :: rest) := by
  rw [gaps_cons_cons, List.mem_append]
  split
  · next h => rw [List.mem_singleton, and_iff_right h]
  · next h => simp only [h, false_and, List.not_mem_nil]

theorem missing_gaps_cons_cons (a b : Nat) (rest : List Nat) :
    missing (gaps (a :: b :: rest)) = (b - a - 1) + missing (gaps (b :: rest)) := by
  rw [gaps_cons_cons]
  unfold missing
  split
  · rfl
  · rw [List.nil_append]
    omega

/-- A gap leaves something out between two indices of the list. -/
theorem of_mem_gaps {a : Nat} {rest : List Nat} (h : (a :: rest).Pairwise (· < ·))
    {g : Nat × Nat} (hg : g ∈ gaps (a :: rest)) :
    a ≤ g.1 ∧ g.1 + 1 < g.2 ∧ g.2 ∈ a :: rest := by
  induction rest generalizing a with
  | nil => cases hg
  | cons b rest ih =>
    obtain ⟨hab, hrest⟩ := List.pairwise_cons.mp h
    rcases mem_gaps_cons_cons.mp hg with ⟨hopen, rfl⟩ | hg
    · exact ⟨le_rfl, show a + 1 < b by omega, List.mem_cons_of_mem a List.mem_cons_self⟩
    · have hlt := hab b List.mem_cons_self
      obtain ⟨hle, hgap, hmem⟩ := ih hrest hg
      exact ⟨by omega, hgap, List.mem_cons_of_mem a hmem⟩

/-- The first index is not after the last. -/
theorem le_getLast? {a last : Nat} {rest : List Nat} (h : (a :: rest).Pairwise (· < ·))
    (hlast : (a :: rest).getLast? = some last) : a ≤ last := by
  rcases List.mem_cons.mp (List.mem_of_getLast? hlast) with rfl | hmem
  · exact le_rfl
  · exact ((List.pairwise_cons.mp h).1 last hmem).le

/-- **The indices of an ascending list** are those of its range that are in
none of its gaps. -/
theorem mem_iff_gaps {a last : Nat} {rest : List Nat} (h : (a :: rest).Pairwise (· < ·))
    (hlast : (a :: rest).getLast? = some last) {i : Nat} :
    i ∈ a :: rest
      ↔ a ≤ i ∧ i ≤ last ∧ ∀ g ∈ gaps (a :: rest), ¬(g.1 < i ∧ i < g.2) := by
  induction rest generalizing a with
  | nil =>
    have heq : a = last := Option.some.inj hlast
    have hgaps : gaps [a] = [] := rfl
    rw [List.mem_singleton, hgaps]
    refine ⟨?_, fun ⟨h₁, h₂, _⟩ => by omega⟩
    rintro rfl
    exact ⟨le_rfl, heq.le, nofun⟩
  | cons b rest ih =>
    obtain ⟨hab, hrest⟩ := List.pairwise_cons.mp h
    have hlt := hab b List.mem_cons_self
    rw [List.getLast?_cons_cons] at hlast
    have hble := le_getLast? hrest hlast
    rw [List.mem_cons, ih hrest hlast]
    simp only [mem_gaps_cons_cons]
    constructor
    · rintro (rfl | ⟨hbi, hil, hgap⟩)
      · refine ⟨le_rfl, by omega, fun g hg => ?_⟩
        rcases hg with ⟨-, rfl⟩ | hg
        · exact fun hi => absurd hi.1 (lt_irrefl i)
        · have hbg := (of_mem_gaps hrest hg).1
          omega
      · refine ⟨by omega, hil, fun g hg => ?_⟩
        rcases hg with ⟨-, rfl⟩ | hg
        · exact fun hi => absurd hi.2 hbi.not_gt
        · exact hgap g hg
    · rintro ⟨hai, hil, hgap⟩
      rcases Nat.lt_or_ge i b with hib | hbi
      · -- between the first two indices there is nothing unless there is a gap
        refine Or.inl ?_
        by_contra hne
        exact hgap (a, b) (Or.inl ⟨by omega, rfl⟩) ⟨by omega, hib⟩
      · exact Or.inr ⟨hbi, hil, fun g hg => hgap g (Or.inr hg)⟩

/-- **An ascending list is shorter than its range** by what is missing in
it. -/
theorem length_add_missing {a last : Nat} {rest : List Nat} (h : (a :: rest).Pairwise (· < ·))
    (hlast : (a :: rest).getLast? = some last) :
    (a :: rest).length + missing (gaps (a :: rest)) = last - a + 1 := by
  induction rest generalizing a with
  | nil =>
    have heq : a = last := Option.some.inj hlast
    rw [heq, Nat.sub_self]
    rfl
  | cons b rest ih =>
    obtain ⟨hab, hrest⟩ := List.pairwise_cons.mp h
    have hlt := hab b List.mem_cons_self
    rw [List.getLast?_cons_cons] at hlast
    have hble := le_getLast? hrest hlast
    have hlen := ih hrest hlast
    rw [missing_gaps_cons_cons, List.length_cons]
    omega

/-- Where nothing is missing there are no gaps. -/
theorem gaps_eq_nil {a : Nat} {rest : List Nat} (h : (a :: rest).Pairwise (· < ·))
    (hzero : missing (gaps (a :: rest)) = 0) : gaps (a :: rest) = [] := by
  refine List.eq_nil_iff_forall_not_mem.mpr fun g hg => ?_
  have hgap := (of_mem_gaps h hg).2.1
  have hone := List.sum_eq_zero_iff.mp hzero _ (List.mem_map_of_mem hg)
  omega

/-! ## Spans -/

/-- **The indices of a span**: those of its pieces. -/
def Contains (s : AxisSpan) (i : Nat) : Prop :=
  ∃ segment ∈ s.segments, segment.1 ≤ i ∧ i ≤ segment.2

theorem contains_run {first last i : Nat} :
    (run first last).Contains i ↔ first ≤ i ∧ i ≤ last := by
  simp [Contains, segments]

theorem contains_wrap {headEnd tailStart extent i : Nat} :
    (wrap headEnd tailStart extent).Contains i
      ↔ i ≤ headEnd ∨ tailStart ≤ i ∧ i ≤ extent - 1 := by
  simp [Contains, segments, firstSegment, lastSegment]

/-- A span that goes around the edge. -/
def IsWrap (s : AxisSpan) : Prop :=
  ∃ headEnd tailStart extent, s = wrap headEnd tailStart extent

/-- **A span of an axis**: its pieces are not empty and on the axis, and if
there are two, something is between them. -/
def Fits : AxisSpan → Nat → Prop
  | run first last, extent => first ≤ last ∧ last < extent
  | wrap headEnd tailStart length, extent =>
    length = extent ∧ headEnd + 1 < tailStart ∧ tailStart < extent

theorem Fits.lt_of_contains {s : AxisSpan} {extent i : Nat} (h : s.Fits extent)
    (hi : s.Contains i) : i < extent := by
  cases s with
  | run first last =>
    obtain ⟨-, hlast⟩ := h
    have hle := (contains_run.mp hi).2
    omega
  | wrap headEnd tailStart length =>
    obtain ⟨rfl, hgap, hlt⟩ := h
    rcases contains_wrap.mp hi with hle | ⟨-, hle⟩ <;> omega

/-- **The number of the indices of a span**, however large. -/
def size : AxisSpan → Nat
  | run first last => last - first + 1
  | wrap headEnd tailStart extent => headEnd + 1 + (extent - tailStart)

/-- **What is found for an ascending list**: a span of the axis with the
indices of the list, and with as many. -/
theorem classify_spec {xs : List Nat} {extent : Nat} {s : AxisSpan}
    (h : xs.Pairwise (· < ·)) (hs : classify xs extent = some s) :
    s.Fits extent ∧ (∀ i, i ∈ xs ↔ s.Contains i) ∧ s.size = xs.length := by
  cases xs with
  | nil => cases hs
  | cons a rest =>
    obtain ⟨last, hlast⟩ : ∃ last, (a :: rest).getLast? = some last :=
      ⟨_, List.getLast?_eq_getLast_of_ne_nil (List.cons_ne_nil a rest)⟩
    have hle := le_getLast? h hlast
    have hlen := length_add_missing h hlast
    have hmem := fun i => mem_iff_gaps h hlast (i := i)
    rw [classify, hlast, List.head?_cons] at hs
    simp only [bind, Option.bind] at hs
    split at hs
    · cases hs
    next hextent =>
    split at hs
    next hfull =>
      -- as long as its range: no gap
      cases hs
      have hgaps := gaps_eq_nil h (by omega)
      refine ⟨⟨hle, by omega⟩, fun i => ?_, hfull⟩
      rw [hmem, hgaps, contains_run]
      simp
    next hnot =>
      split at hs
      next headEnd tailStart hgaps =>
        split at hs
        next hends =>
          -- one gap, and both ends of the axis
          obtain ⟨rfl, rfl⟩ := hends
          cases hs
          obtain ⟨-, hgap, htail⟩ := of_mem_gaps h (hgaps ▸ List.mem_singleton_self _)
          have htailLe := ((hmem tailStart).mp htail).2.1
          have hmissing : missing (gaps (0 :: rest)) = tailStart - headEnd - 1 := by
            rw [hgaps]
            rfl
          refine ⟨⟨rfl, hgap, by omega⟩, fun i => ?_, ?_⟩
          · rw [hmem, hgaps, contains_wrap]
            simp only [List.mem_singleton, forall_eq]
            omega
          · show headEnd + 1 + (extent - tailStart) = (0 :: rest).length
            omega
        · cases hs
      · cases hs

/-! ## Counting in words -/

theorem length?_run (first last : Nat) :
    (run first last).length?
      = (Word.checked (last - first)).bind fun between => Word.checked (between + 1) := rfl

theorem length?_wrap (headEnd tailStart extent : Nat) :
    (wrap headEnd tailStart extent).length?
      = (Word.checked (headEnd + 1)).bind fun head =>
        (Word.checked (head + extent)).bind fun sum => Word.checked (sum - tailStart) := rfl

/-- **A count with checks** stops exactly if the span wraps and the head and the whole
axis together are too many for a word. Otherwise it is the number of the indices. -/
theorem Fits.length?_cases {s : AxisSpan} {extent : Nat} (h : s.Fits extent)
    (hword : extent < 2 ^ 64) :
    (s.length? = some s.size
        ∧ ∀ headEnd tailStart, s = wrap headEnd tailStart extent → headEnd + 1 + extent < 2 ^ 64)
      ∨ s.length? = none
        ∧ ∃ headEnd tailStart, s = wrap headEnd tailStart extent
          ∧ 2 ^ 64 ≤ headEnd + 1 + extent := by
  cases s with
  | run first last =>
    obtain ⟨hle, hlt⟩ := h
    refine Or.inl ⟨?_, nofun⟩
    rw [length?_run, Word.checked_of_lt (n := last - first) (by omega) (by omega),
      Option.bind_some, Word.checked_of_lt (n := last - first + 1) (by omega) (by omega), size]
  | wrap headEnd tailStart length =>
    obtain ⟨rfl, hgap, hlt⟩ := h
    rw [length?_wrap, Word.checked_of_lt (n := headEnd + 1) (by omega) (by omega),
      Option.bind_some]
    rcases Nat.lt_or_ge (headEnd + 1 + length) (2 ^ 64) with hsum | hsum
    · refine Or.inl ⟨?_, ?_⟩
      · rw [Word.checked_of_lt (n := headEnd + 1 + length) (by omega) hsum, Option.bind_some,
          Word.checked_of_lt (n := headEnd + 1 + (length - tailStart)) (by omega) (by omega), size]
      · rintro _ _ ⟨⟩
        exact hsum
    · refine Or.inr ⟨?_, headEnd, tailStart, rfl, hsum⟩
      rw [Word.checked_of_le (n := headEnd + 1 + length) (by omega) hsum, Option.bind_none]

/-- **A count without checks** is the number of the indices in any case: what is lost
with the sum comes back with the difference. -/
theorem Fits.length_eq {s : AxisSpan} {extent : Nat} (h : s.Fits extent)
    (hword : extent < 2 ^ 64) : s.length = s.size := by
  cases s with
  | run first last =>
    obtain ⟨hle, hlt⟩ := h
    show Word.wrapped (Word.wrapped (last - first) + 1) = last - first + 1
    rw [Word.wrapped, Word.wrapped, Word.size_eq]
    omega
  | wrap headEnd tailStart length =>
    obtain ⟨rfl, hgap, hlt⟩ := h
    show Word.wrapped (Word.wrapped (Word.wrapped (headEnd + 1) + length) - tailStart)
      = headEnd + 1 + (length - tailStart)
    rw [Word.wrapped, Word.wrapped, Word.wrapped, Word.size_eq]
    omega

theorem Fits.size_le {s : AxisSpan} {extent : Nat} (h : s.Fits extent) : s.size ≤ extent := by
  cases s with
  | run first last =>
    obtain ⟨hle, hlt⟩ := h
    show last - first + 1 ≤ extent
    omega
  | wrap headEnd tailStart length =>
    obtain ⟨rfl, hgap, hlt⟩ := h
    show headEnd + 1 + (length - tailStart) ≤ length
    omega

/-- On an axis of at most half as many indices as there are words, a count with checks
comes to its end. -/
theorem Fits.length?_eq {s : AxisSpan} {extent : Nat} (h : s.Fits extent)
    (hsmall : extent ≤ 2 ^ 63) : s.length? = some s.size := by
  rcases h.length?_cases (by omega) with ⟨heq, -⟩ | ⟨-, headEnd, tailStart, rfl, hsum⟩
  · exact heq
  · obtain ⟨-, hgap, hlt⟩ := h
    omega

/-! ## Short axes -/

/-- All rows of requirements on a number of positions. -/
def allRows : Nat → List (List (Option Bool))
  | 0 => [[]]
  | n + 1 => (allRows n).flatMap fun row => [none :: row, some false :: row, some true :: row]

theorem mem_allRows {n : Nat} {row : List (Option Bool)} : row ∈ allRows n ↔ row.length = n := by
  induction n generalizing row with
  | zero => rw [allRows, List.mem_singleton, List.length_eq_zero_iff]
  | succ n ih =>
    rw [allRows, List.mem_flatMap]
    constructor
    · rintro ⟨rest, hrest, hrow⟩
      simp only [List.mem_cons, List.not_mem_nil, or_false] at hrow
      rcases hrow with rfl | rfl | rfl
      all_goals rw [List.length_cons, ih.mp hrest]
    · intro hlen
      obtain ⟨required, rest, rfl⟩ := List.exists_cons_of_length_eq_add_one hlen
      refine ⟨rest, ih.mpr (Nat.succ.inj hlen), ?_⟩
      rcases required with _ | _ | _
      all_goals simp

/-- The indices of an axis of two or four that a span of one, two or four
indices can have are those that meet some row. There are sixteen sets of
indices and nine rows at most, so this is checked. -/
theorem spans_iff_meets_of_sublist {n : Nat} (hn : n = 1 ∨ n = 2) :
    ∀ xs ∈ (List.range (2 ^ n)).sublists,
      (Region.isPowerOfTwo xs.length = true ∧ (classify xs (2 ^ n)).isSome = true)
        ↔ ∃ row ∈ allRows n, ∀ i < 2 ^ n, i ∈ xs ↔ agrees row (gray i) = true := by
  rcases hn with rfl | rfl
  · decide
  · decide

/-- **Spans and product terms on one axis.** On an axis for one variable or
two, an ascending list whose length is a power of two is a span exactly when
its indices are those whose Gray codes meet some row of requirements. -/
theorem spans_iff_meets {n : Nat} (hn : n = 1 ∨ n = 2) {xs : List Nat}
    (h : xs.Pairwise (· < ·)) :
    (Region.isPowerOfTwo xs.length = true ∧ ∃ s, classify xs (2 ^ n) = some s)
      ↔ ∃ row : List (Option Bool), row.length = n
          ∧ ∀ i, i ∈ xs ↔ i < 2 ^ n ∧ agrees row (gray i) = true := by
  -- a list of indices of the axis is one of finitely many
  have hsublist : (∀ i ∈ xs, i < 2 ^ n) → xs ∈ (List.range (2 ^ n)).sublists := by
    intro hlt
    have hfilter : xs = (List.range (2 ^ n)).filter (· ∈ xs) := by
      refine eq_of_ascending h (List.Pairwise.filter _ List.pairwise_lt_range) fun i => ?_
      rw [List.mem_filter, List.mem_range, decide_eq_true_eq]
      exact ⟨fun hi => ⟨hlt i hi, hi⟩, And.right⟩
    rw [List.mem_sublists, hfilter]
    exact List.filter_sublist
  constructor
  · rintro ⟨hpow, s, hs⟩
    obtain ⟨hfits, hmem, -⟩ := classify_spec h hs
    have hlt : ∀ i ∈ xs, i < 2 ^ n := fun i hi => hfits.lt_of_contains ((hmem i).mp hi)
    obtain ⟨row, hrow, hmeets⟩ := (spans_iff_meets_of_sublist hn xs (hsublist hlt)).mp
      ⟨hpow, Option.isSome_iff_exists.mpr ⟨s, hs⟩⟩
    exact ⟨row, mem_allRows.mp hrow, fun i =>
      ⟨fun hi => ⟨hlt i hi, (hmeets i (hlt i hi)).mp hi⟩, fun hi => (hmeets i hi.1).mpr hi.2⟩⟩
  · rintro ⟨row, hrow, hmeets⟩
    have hlt : ∀ i ∈ xs, i < 2 ^ n := fun i hi => ((hmeets i).mp hi).1
    obtain ⟨hpow, hspan⟩ := (spans_iff_meets_of_sublist hn xs (hsublist hlt)).mpr
      ⟨row, mem_allRows.mpr hrow, fun i hi => (hmeets i).trans (and_iff_right hi)⟩
    exact ⟨hpow, Option.isSome_iff_exists.mp hspan⟩

-- of eight indices, the span from the second to the fifth meets no row
example : classify [1, 2, 3, 4] 8 = some (run 1 4)
    ∧ ∀ row ∈ allRows 3, ∃ i < 8, ¬(i ∈ [1, 2, 3, 4] ↔ agrees row (gray i) = true) := by
  decide

end AxisSpan

end Karnaugh
