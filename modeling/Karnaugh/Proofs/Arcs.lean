import Karnaugh.Proofs.Spans

/-!
# Spans are arcs

An axis of a map is a cycle: its first index comes after its last. The sets
of neighbours on a cycle are its **arcs**, and an arc is told by where it starts
and how far it goes (`IsArc`). Nothing is said there of edges, of gaps or of
pieces.

`AxisSpan.classify` looks for a run or for a single gap between both ends of the
axis. That this finds every arc and nothing else is shown by way of the indices
of a span, written out in order (`AxisSpan.indices`):

* `AxisSpan.classify` reads a span off its indices (`AxisSpan.classify_indices`),
  so it finds a span for a list exactly if the list is the indices of that span
  (`AxisSpan.classify_eq_some_iff`);
* the indices of spans are the arcs (`AxisSpan.exists_classify_iff`). An arc
  that starts early enough is a run, one that goes past the last index wraps, and
  one that is as long as the axis is the run of all its indices, wherever it
  starts.

None of this depends on how long the axis is. How the indices of a span are *counted*
does (`AxisSpan.classify_iff_arc`): the count goes through a sum that is larger than
its result, and on the longest axes too large for a word
(`AxisSpan.exists_count_stops`).
-/

namespace Karnaugh

/-- **An arc of a cycle** of `extent` indices: those met by going on from some
index for some number of steps. -/
def IsArc (extent : Nat) (s : Finset Nat) : Prop :=
  ∃ start length, s = (Finset.range length).image fun k => (start + k) % extent

/-- **Which indices an arc has.** Going on from `start`, an index is met after as
many steps as it lies behind the start, once around the cycle if it is before
it. -/
theorem mem_arc_iff {extent start length i : Nat} (h : start < extent) :
    i ∈ (Finset.range length).image (fun k => (start + k) % extent)
      ↔ i < extent
        ∧ (start ≤ i ∧ i < start + length ∨ i < start ∧ i + extent < start + length) := by
  simp only [Finset.mem_image, Finset.mem_range]
  constructor
  · rintro ⟨k, hk, rfl⟩
    refine ⟨Nat.mod_lt _ (Nat.zero_lt_of_lt h), ?_⟩
    have hdiv := Nat.mod_add_div (start + k) extent
    rcases Nat.eq_zero_or_pos ((start + k) / extent) with hzero | hpos
    · -- the edge is not reached
      rw [hzero, Nat.mul_zero, Nat.add_zero] at hdiv
      omega
    · have hround : extent ≤ extent * ((start + k) / extent) := Nat.le_mul_of_pos_right _ hpos
      omega
  · rintro ⟨hi, ⟨hle, hlt⟩ | ⟨hlt, hround⟩⟩
    · exact ⟨i - start, by omega, by rw [Nat.add_sub_cancel' hle, Nat.mod_eq_of_lt hi]⟩
    · refine ⟨i + extent - start, by omega, ?_⟩
      rw [Nat.add_sub_cancel' (by omega), Nat.add_mod_right, Nat.mod_eq_of_lt hi]

/-- The start of an arc can be taken to be on the cycle. -/
theorem arc_mod (extent start length : Nat) :
    (Finset.range length).image (fun k => (start % extent + k) % extent)
      = (Finset.range length).image fun k => (start + k) % extent := by
  refine congrArg (Finset.image · _) (funext fun k => ?_)
  rw [Nat.mod_add_mod]

namespace AxisSpan

/-! ## The indices of a span, in order -/

/-- **The indices of a span**: those of its pieces, one piece after the other. -/
def indices (s : AxisSpan) : List Nat :=
  s.segments.flatMap fun segment => List.range' segment.1 (segment.2 + 1 - segment.1)

theorem indices_run (first last : Nat) :
    (run first last).indices = List.range' first (last + 1 - first) :=
  List.append_nil _

theorem indices_wrap (headEnd tailStart extent : Nat) :
    (wrap headEnd tailStart extent).indices
      = List.range' 0 (headEnd + 1) ++ List.range' tailStart (extent - 1 + 1 - tailStart) := by
  show List.range' 0 (headEnd + 1) ++ (List.range' tailStart (extent - 1 + 1 - tailStart) ++ []) = _
  rw [List.append_nil]

theorem mem_indices {s : AxisSpan} {i : Nat} : i ∈ s.indices ↔ s.Contains i := by
  rw [indices, List.mem_flatMap]
  refine exists_congr fun segment => and_congr_right fun _ => ?_
  rw [List.mem_range'_1]
  omega

theorem Fits.pairwise_indices {s : AxisSpan} {extent : Nat} (h : s.Fits extent) :
    s.indices.Pairwise (· < ·) := by
  cases s with
  | run first last =>
    rw [indices_run]
    exact List.pairwise_lt_range'
  | wrap headEnd tailStart length =>
    obtain ⟨-, hgap, -⟩ := h
    rw [indices_wrap]
    refine List.pairwise_append.mpr ⟨List.pairwise_lt_range', List.pairwise_lt_range', ?_⟩
    intro i hi j hj
    rw [List.mem_range'_1] at hi hj
    omega

/-! ## Reading a span off its indices -/

/-- Consecutive indices have no gap between them. -/
theorem gaps_range'_append (first n : Nat) (rest : List Nat) :
    gaps (List.range' first (n + 1) ++ rest) = gaps ((first + n) :: rest) := by
  induction n generalizing first with
  | zero => rfl
  | succ n ih =>
    have hnext := ih (first + 1)
    rw [List.range'_succ, List.cons_append] at hnext
    rw [List.range'_succ, List.range'_succ, List.cons_append, List.cons_append, gaps_cons_cons,
      if_neg (by omega), List.nil_append, hnext, Nat.add_right_comm, Nat.add_assoc]

/-- **A span is found for its indices.** -/
theorem classify_indices {s : AxisSpan} {extent : Nat} (h : s.Fits extent) :
    classify s.indices extent = some s := by
  cases s with
  | run first last =>
    obtain ⟨hle, hlt⟩ := h
    have hcount : last + 1 - first = last - first + 1 := Nat.sub_add_comm hle
    have hlast : first + (last - first + 1) - 1 = last := by omega
    rw [indices_run, hcount, classify, List.head?_range', List.getLast?_range', if_neg (by omega),
      if_neg (by omega), hlast]
    simp only [bind, Option.bind]
    rw [if_neg hlt.not_ge, if_pos List.length_range'.symm]
  | wrap headEnd tailStart length =>
    obtain ⟨rfl, hgap, hlt⟩ := h
    obtain ⟨n, rfl⟩ : ∃ n, length = tailStart + n + 1 := ⟨length - tailStart - 1, by omega⟩
    have hcount : tailStart + n + 1 - 1 + 1 - tailStart = n + 1 := by omega
    have hgaps : gaps (List.range' 0 (headEnd + 1) ++ List.range' tailStart (n + 1))
        = [(headEnd, tailStart)] := by
      have htail := gaps_range'_append tailStart n []
      rw [List.append_nil, List.range'_succ] at htail
      rw [gaps_range'_append, Nat.zero_add, List.range'_succ, gaps_cons_cons,
        if_pos (by omega), htail]
      rfl
    rw [indices_wrap, hcount, classify, List.head?_append, List.getLast?_append, List.head?_range',
      List.getLast?_range', if_neg (by omega), if_neg (by omega), List.length_append,
      List.length_range', List.length_range', hgaps]
    simp only [bind, Option.bind, Option.or]
    rw [if_neg (by omega), if_neg (by omega), if_pos ⟨trivial, by omega⟩]

/-- **What is found**: a span of the axis, for the list of its indices. -/
theorem classify_eq_some_iff {xs : List Nat} {extent : Nat} {s : AxisSpan}
    (h : xs.Pairwise (· < ·)) :
    classify xs extent = some s ↔ s.Fits extent ∧ s.indices = xs := by
  constructor
  · intro hs
    obtain ⟨hfits, hmem, -⟩ := classify_spec h hs
    exact ⟨hfits, eq_of_ascending hfits.pairwise_indices h fun i =>
      mem_indices.trans (hmem i).symm⟩
  · rintro ⟨hfits, rfl⟩
    exact classify_indices hfits

/-! ## Spans and arcs -/

/-- The indices of a span are an arc. A span that wraps starts with its tail. -/
theorem Fits.isArc {s : AxisSpan} {extent : Nat} (h : s.Fits extent) :
    IsArc extent s.indices.toFinset := by
  cases s with
  | run first last =>
    obtain ⟨hle, hlt⟩ := h
    refine ⟨first, last + 1 - first, Finset.ext fun i => ?_⟩
    rw [List.mem_toFinset, mem_indices, contains_run, mem_arc_iff (hle.trans_lt hlt)]
    omega
  | wrap headEnd tailStart length =>
    obtain ⟨rfl, hgap, hlt⟩ := h
    refine ⟨tailStart, length - tailStart + headEnd + 1, Finset.ext fun i => ?_⟩
    rw [List.mem_toFinset, mem_indices, contains_wrap, mem_arc_iff hlt]
    omega

/-- **An arc is a span**: a run, a wrap, or the whole axis. -/
theorem exists_fits_of_arc {extent start length : Nat} (hstart : start < extent)
    (hlength : 0 < length) :
    ∃ s : AxisSpan, s.Fits extent ∧ ∀ i, s.Contains i
      ↔ i ∈ (Finset.range length).image fun k => (start + k) % extent := by
  simp only [mem_arc_iff hstart]
  rcases Nat.lt_or_ge length extent with hpart | hwhole
  · rcases Nat.lt_or_ge extent (start + length) with hover | hinside
    · refine ⟨wrap (start + length - extent - 1) start extent, ⟨rfl, by omega, hstart⟩, fun i => ?_⟩
      rw [contains_wrap]
      omega
    · refine ⟨run start (start + length - 1), ⟨by omega, by omega⟩, fun i => ?_⟩
      rw [contains_run]
      omega
  · refine ⟨run 0 (extent - 1), ⟨by omega, by omega⟩, fun i => ?_⟩
    rw [contains_run]
    omega

/-- **The arcs of an axis are the indices of its spans**, unless they are
empty. So a span is found for an ascending list that is one. -/
theorem exists_classify_iff {xs : List Nat} {extent : Nat} (h : xs.Pairwise (· < ·)) :
    (∃ s, classify xs extent = some s)
      ↔ xs ≠ [] ∧ (∀ i ∈ xs, i < extent) ∧ IsArc extent xs.toFinset := by
  constructor
  · rintro ⟨s, hs⟩
    obtain ⟨hfits, rfl⟩ := (classify_eq_some_iff h).mp hs
    refine ⟨?_, fun i hi => hfits.lt_of_contains (mem_indices.mp hi), hfits.isArc⟩
    intro hnil
    rw [hnil] at hs
    cases hs
  · rintro ⟨hne, hlt, start, length, harc⟩
    obtain ⟨a, ha⟩ := List.exists_mem_of_ne_nil xs hne
    have hextent : 0 < extent := Nat.zero_lt_of_lt (hlt a ha)
    have hlength : 0 < length := by
      rcases Nat.eq_zero_or_pos length with rfl | hpos
      · rw [Finset.range_zero, Finset.image_empty, List.toFinset_eq_empty_iff] at harc
        exact absurd harc hne
      · exact hpos
    rw [← arc_mod] at harc
    obtain ⟨s, hfits, hmem⟩ := exists_fits_of_arc (Nat.mod_lt start hextent) hlength
    refine ⟨s, (classify_eq_some_iff h).mpr ⟨hfits, ?_⟩⟩
    refine eq_of_ascending hfits.pairwise_indices h fun i => ?_
    rw [mem_indices, hmem, ← harc, List.mem_toFinset]

/-- A span wraps if it has both ends of the axis and not all that is between. -/
theorem Fits.isWrap_iff {s : AxisSpan} {extent : Nat} (h : s.Fits extent) :
    s.IsWrap ↔ s.Contains 0 ∧ s.Contains (extent - 1) ∧ ¬∀ i < extent, s.Contains i := by
  cases s with
  | run first last =>
    obtain ⟨hle, hlt⟩ := h
    simp only [contains_run]
    refine iff_of_false (fun ⟨_, _, _, hwrap⟩ => nomatch hwrap) ?_
    rintro ⟨hzero, hend, hall⟩
    exact hall fun i hi => ⟨by omega, by omega⟩
  | wrap headEnd tailStart length =>
    obtain ⟨rfl, hgap, hlt⟩ := h
    refine iff_of_true ⟨_, _, _, rfl⟩ ⟨?_, ?_, fun hall => ?_⟩
    · exact contains_wrap.mpr (Or.inl (Nat.zero_le _))
    · exact contains_wrap.mpr (Or.inr ⟨by omega, le_rfl⟩)
    · -- the index after the head is left out
      have hnext := contains_wrap.mp (hall (headEnd + 1) (by omega))
      omega

/-- **The spans of an axis are its arcs.** On an axis of any extent, a span is
found for an ascending list exactly if the list is not empty, its indices are on
the axis, and they form one arc of the cycle. The pieces of the span, one after
the other, then have the indices of the list, in order. It wraps exactly if the arc
has both ends of the axis but not every index.

If the extent is a word, a count without checks is the number of the indices. A count
with checks is the same as long as, for a span that wraps, the head and the whole axis
together are not too many for a word, and else stops. -/
theorem classify_iff_arc (extent : Nat) (xs : List Nat) (h : xs.Pairwise (· < ·)) :
    ((∃ s, classify xs extent = some s)
      ↔ xs ≠ [] ∧ (∀ i ∈ xs, i < extent) ∧ IsArc extent xs.toFinset)
    ∧ ∀ s, classify xs extent = some s →
      s.indices = xs
        ∧ (s.IsWrap ↔ 0 ∈ xs ∧ extent - 1 ∈ xs ∧ ¬∀ i < extent, i ∈ xs)
        ∧ (extent < 2 ^ 64 →
          s.length = xs.length
            ∧ (s.length? = some xs.length ↔ ∀ headEnd tailStart,
              s = wrap headEnd tailStart extent → headEnd + 1 + extent < 2 ^ 64)
            ∧ (s.length? = none ↔ ∃ headEnd tailStart,
              s = wrap headEnd tailStart extent ∧ 2 ^ 64 ≤ headEnd + 1 + extent)) := by
  refine ⟨exists_classify_iff h, fun s hs => ?_⟩
  obtain ⟨hfits, rfl⟩ := (classify_eq_some_iff h).mp hs
  have hsize : s.size = s.indices.length := (classify_spec h hs).2.2
  refine ⟨rfl, ?_, fun hword => ?_⟩
  · simp only [mem_indices]
    exact hfits.isWrap_iff
  · rw [hfits.length_eq hword, hsize]
    refine ⟨rfl, ?_⟩
    rcases hfits.length?_cases hword with ⟨hcount, hfew⟩ | ⟨hstop, headEnd, tailStart, hs, hmany⟩
    · rw [hcount, hsize]
      refine ⟨iff_of_true rfl hfew, iff_of_false (Option.some_ne_none _) ?_⟩
      rintro ⟨headEnd, tailStart, hs, hmany⟩
      exact absurd (hfew headEnd tailStart hs) hmany.not_gt
    · rw [hstop]
      refine ⟨iff_of_false (Option.some_ne_none _).symm fun hfew => ?_,
        iff_of_true rfl ⟨headEnd, tailStart, hs, hmany⟩⟩
      exact absurd (hfew headEnd tailStart hs) hmany.not_gt

/-- The theorem on an axis of eight, at an arc over its edge. -/
theorem classify_iff_arc_eight :
    [0, 1, 6, 7].Pairwise (· < ·)
      ∧ (∃ s, classify [0, 1, 6, 7] 8 = some s ∧ s.indices = [0, 1, 6, 7] ∧ s.IsWrap
        ∧ s.length? = some 4 ∧ s.length = 4)
      ∧ IsArc 8 {0, 1, 6, 7} := by
  have hsorted : [0, 1, 6, 7].Pairwise (· < ·) := by decide
  obtain ⟨hiff, hall⟩ := classify_iff_arc 8 [0, 1, 6, 7] hsorted
  have hfound : classify [0, 1, 6, 7] 8 = some (wrap 1 6 8) := by decide
  obtain ⟨hindices, hwrap, hlength⟩ := hall _ hfound
  obtain ⟨hwrapped, hchecked, -⟩ := hlength (by decide)
  refine ⟨hsorted, ⟨_, hfound, hindices, hwrap.mpr (by decide), hchecked.mpr ?_, hwrapped⟩,
    (hiff.mp ⟨_, hfound⟩).2.2⟩
  rintro _ _ ⟨⟩
  decide

/-- **A count with checks may stop.** On the longest axis there is, the first and the
last index are an arc. To count them, the whole axis is added to the head, and that is
too much for a word. -/
theorem exists_count_stops :
    [0, 2 ^ 64 - 2].Pairwise (· < ·)
      ∧ ∃ s, classify [0, 2 ^ 64 - 2] (2 ^ 64 - 1) = some s ∧ s.indices = [0, 2 ^ 64 - 2]
        ∧ s.length? = none :=
  ⟨by decide, wrap 0 (2 ^ 64 - 2) (2 ^ 64 - 1), by decide, by decide, by decide⟩

end AxisSpan

end Karnaugh
