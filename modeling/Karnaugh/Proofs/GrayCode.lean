import Mathlib
import Karnaugh.Gray

/-!
# The Gray code and its inverse

A Gray code is a number combined with its half, so halves cancel. The code of
an exclusive or is the exclusive or of the codes (`gray_xor`), and halving a
number halves its code (`gray_shiftRight`). With these two, each direction has
one invariant of the loop that decodes: what the loop still adds to a number
is half of the number whose code it is given (`ungrayFrom_gray`), and the code
of what it adds is half of the code it is given (`gray_ungrayFrom`). No bound
on the number of digits comes in.

Two codes differ where the code of the exclusive or has a one. A number and
the next one differ in all digits up to the first zero, and the code of a
number that is all ones is a power of two (`gray_two_pow_sub_one`). So the
codes of neighbours differ in one digit, and for the same reason so do the
first and the last code of an axis whose length is a power of two.

Neither direction makes a number longer. So the code renumbers the positions
of such an axis, and going around it changes one digit at a time
(`gray_cyclic`).
-/

namespace Karnaugh

theorem gray_xor (a b : Nat) : gray (a ^^^ b) = gray a ^^^ gray b := by
  unfold gray
  rw [Nat.shiftRight_xor_distrib, Nat.xor_assoc, Nat.xor_assoc, Nat.xor_left_comm b]

theorem gray_shiftRight (i k : Nat) : gray i >>> k = gray (i >>> k) := by
  rw [gray, gray, Nat.shiftRight_xor_distrib, ← Nat.shiftRight_add, ← Nat.shiftRight_add,
    Nat.add_comm]

/-- A number is its code and its half. -/
theorem gray_xor_half (i : Nat) : gray i ^^^ (i >>> 1) = i :=
  Nat.xor_xor_cancel_right i (i >>> 1)

/-! ## Cancellation -/

theorem ungrayFrom_zero (i : Nat) : ungrayFrom i 0 = i := by
  rw [ungrayFrom, if_neg (by decide)]

/-- One round of the loop. Where nothing is left to halve, it changes
nothing. -/
theorem ungrayFrom_eq (i code : Nat) :
    ungrayFrom i code = ungrayFrom (i ^^^ (code >>> 1)) (code >>> 1) := by
  rcases Nat.lt_or_ge 1 code with h | h
  · rw [ungrayFrom, if_pos h]
  · have hhalf : code >>> 1 = 0 := by omega
    rw [hhalf, Nat.xor_zero, ungrayFrom_zero, ungrayFrom, if_neg h.not_gt]

/-- **What the loop adds, told by the number whose code it is given**: half of
that number. -/
theorem ungrayFrom_gray (i n : Nat) : ungrayFrom i (gray n) = i ^^^ (n >>> 1) := by
  induction n using Nat.strong_induction_on generalizing i with
  | _ n ih =>
    rcases Nat.eq_zero_or_pos n with rfl | hpos
    · exact (ungrayFrom_zero i).trans (Nat.xor_zero i).symm
    · have hlt : n >>> 1 < n := by omega
      rw [ungrayFrom_eq, gray_shiftRight, ih _ hlt, Nat.xor_assoc, gray_xor_half]

/-- **The code of what the loop adds**: half of the code it is given. -/
theorem gray_ungrayFrom (i code : Nat) :
    gray (ungrayFrom i code) = gray i ^^^ (code >>> 1) := by
  induction code using Nat.strong_induction_on generalizing i with
  | _ code ih =>
    rcases Nat.eq_zero_or_pos code with rfl | hpos
    · rw [ungrayFrom_zero]
      exact (Nat.xor_zero _).symm
    · have hlt : code >>> 1 < code := by omega
      rw [ungrayFrom_eq, ih _ hlt, gray_xor, Nat.xor_assoc, gray_xor_half]

/-- **Decoding undoes encoding.** -/
theorem ungray_gray (i : Nat) : ungray (gray i) = i :=
  (ungrayFrom_gray (gray i) i).trans (gray_xor_half i)

/-- **Encoding undoes decoding.** -/
theorem gray_ungray (code : Nat) : gray (ungray code) = code :=
  (gray_ungrayFrom code code).trans (Nat.xor_xor_cancel_right code (code >>> 1))

/-! ## Lengths -/

theorem shiftRight_lt {i n : Nat} (k : Nat) (h : i < 2 ^ n) : i >>> k < 2 ^ n :=
  (Nat.shiftRight_le i k).trans_lt h

theorem gray_lt {i n : Nat} (h : i < 2 ^ n) : gray i < 2 ^ n :=
  Nat.xor_lt_two_pow h (shiftRight_lt 1 h)

theorem ungrayFrom_lt {i code n : Nat} (hi : i < 2 ^ n) (h : code < 2 ^ n) :
    ungrayFrom i code < 2 ^ n := by
  fun_induction ungrayFrom i code with
  | case1 i code _ ih =>
    exact ih (Nat.xor_lt_two_pow hi (shiftRight_lt 1 h)) (shiftRight_lt 1 h)
  | case2 => exact hi

theorem ungray_lt {code n : Nat} (h : code < 2 ^ n) : ungray code < 2 ^ n :=
  ungrayFrom_lt h h

/-- **The code renumbers an axis** whose length is a power of two. -/
theorem bijOn_gray (k : Nat) : Set.BijOn gray (Set.Iio (2 ^ k)) (Set.Iio (2 ^ k)) :=
  Set.InvOn.bijOn ⟨fun i _ => ungray_gray i, fun code _ => gray_ungray code⟩
    (fun _ => gray_lt) (fun _ => ungray_lt)

/-! ## Neighbours -/

/-- **Two numbers differ in one bit**, no more and no less. -/
def DifferInOneBit (a b : Nat) : Prop :=
  ∃! k : Nat, a.testBit k ≠ b.testBit k

/-- They do when their exclusive or is a power of two. -/
theorem differInOneBit_of_xor_eq {a b k : Nat} (h : a ^^^ b = 2 ^ k) : DifferInOneBit a b := by
  have hbit : ∀ j, a.testBit j ≠ b.testBit j ↔ k = j := fun j => by
    rw [← Bool.xor_iff_ne, ← Nat.testBit_xor, h, Nat.testBit_two_pow, decide_eq_true_eq]
  exact ⟨k, (hbit k).mpr rfl, fun j hj => ((hbit j).mp hj).symm⟩

theorem DifferInOneBit.symm {a b : Nat} (h : DifferInOneBit a b) : DifferInOneBit b a :=
  h.imp fun _ hk => ⟨hk.1.symm, fun j hj => hk.2 j hj.symm⟩

/-- **The code of a number that is all ones** is its leading one. -/
theorem gray_two_pow_sub_one (k : Nat) : gray (2 ^ (k + 1) - 1) = 2 ^ k := by
  refine Nat.eq_of_testBit_eq fun j => ?_
  rw [gray, Nat.testBit_xor, Nat.testBit_shiftRight, Nat.testBit_two_pow_sub_one,
    Nat.testBit_two_pow_sub_one, Nat.testBit_two_pow]
  rcases Nat.lt_trichotomy j k with h | rfl | h
  · simp [show j < k + 1 by omega, show 1 + j < k + 1 by omega, show k ≠ j by omega]
  · simp [show ¬1 + j < j + 1 by omega]
  · simp [show ¬j < k + 1 by omega, show ¬1 + j < k + 1 by omega, show k ≠ j by omega]

/-- **Adding one** reverses the digits up to the first zero and no others. -/
theorem exists_xor_succ_eq (i : Nat) : ∃ k : Nat, i ^^^ (i + 1) = 2 ^ (k + 1) - 1 := by
  induction i using Nat.strong_induction_on with
  | _ i ih =>
    -- the last digit is a zero, or a one that adding carries past
    rcases Nat.even_or_odd' i with ⟨m, rfl | rfl⟩
    · have hxor := Nat.xor_bit false m true m
      rw [Nat.xor_self] at hxor
      exact ⟨0, hxor⟩
    · obtain ⟨k, hk⟩ := ih m (by omega)
      have hxor := Nat.xor_bit true m false (m + 1)
      rw [hk] at hxor
      refine ⟨k + 1, hxor.trans ?_⟩
      rw [Nat.bit_val, Nat.pow_succ 2 (k + 1)]
      have hpos := Nat.two_pow_pos (k + 1)
      show 2 * (2 ^ (k + 1) - 1) + 1 = 2 ^ (k + 1) * 2 - 1
      omega

theorem differInOneBit_gray_succ (i : Nat) : DifferInOneBit (gray i) (gray (i + 1)) := by
  obtain ⟨k, hk⟩ := exists_xor_succ_eq i
  refine differInOneBit_of_xor_eq (k := k) ?_
  rw [← gray_xor, hk, gray_two_pow_sub_one]

/-- **The ends of an axis** have codes that differ in the leading bit. -/
theorem differInOneBit_gray_ends (k : Nat) :
    DifferInOneBit (gray 0) (gray (2 ^ (k + 1) - 1)) := by
  refine differInOneBit_of_xor_eq (k := k) ?_
  rw [gray_zero, Nat.zero_xor, gray_two_pow_sub_one]

/-- **Going around an axis** changes the code in one bit at a time, also at the
step from its end to its start. -/
theorem differInOneBit_gray_next {i k : Nat} (hi : i < 2 ^ (k + 1)) :
    DifferInOneBit (gray i) (gray ((i + 1) % 2 ^ (k + 1))) := by
  have hle : i + 1 ≤ 2 ^ (k + 1) := hi
  rcases Nat.lt_or_eq_of_le hle with hlt | heq
  · rw [Nat.mod_eq_of_lt hlt]
    exact differInOneBit_gray_succ i
  · rw [heq, Nat.mod_self, show i = 2 ^ (k + 1) - 1 by omega]
    exact (differInOneBit_gray_ends k).symm

/-- **The Gray code is cyclic**, on the words of 32 bits and on each axis whose
length is a power of two. On words, encoding and decoding undo each other,
and the codes of neighbours differ in one bit. An axis is renumbered by its
codes; the first and the last of them differ in one bit too, so each position
and the next one around the axis do. -/
theorem gray_cyclic :
    (∀ v < 2 ^ 32, gray v < 2 ^ 32 ∧ ungray v < 2 ^ 32
        ∧ ungray (gray v) = v ∧ gray (ungray v) = v)
      ∧ (∀ i < 2 ^ 32 - 1, DifferInOneBit (gray i) (gray (i + 1)))
      ∧ ∀ k, 1 ≤ k → k ≤ 32 →
          Set.BijOn gray (Set.Iio (2 ^ k)) (Set.Iio (2 ^ k))
            ∧ DifferInOneBit (gray 0) (gray (2 ^ k - 1))
            ∧ ∀ i < 2 ^ k, DifferInOneBit (gray i) (gray ((i + 1) % 2 ^ k)) := by
  refine ⟨fun v hv => ⟨gray_lt hv, ungray_lt hv, ungray_gray v, gray_ungray v⟩,
    fun i _ => differInOneBit_gray_succ i, fun k hk _ => ?_⟩
  obtain ⟨k, rfl⟩ : ∃ k', k = k' + 1 := ⟨k - 1, by omega⟩
  exact ⟨bijOn_gray (k + 1), differInOneBit_gray_ends k, fun i => differInOneBit_gray_next⟩

/-- The theorem at a word with ones and zeros in turn, at a neighbour to which
a carry runs through 31 digits, and on the longest axis, where the step from
the end to the start is the last. -/
theorem gray_cyclic_word :
    (2863311530 < 2 ^ 32 ∧ gray 2863311530 < 2 ^ 32 ∧ ungray 2863311530 < 2 ^ 32
        ∧ ungray (gray 2863311530) = 2863311530 ∧ gray (ungray 2863311530) = 2863311530)
      ∧ (2147483647 < 2 ^ 32 - 1 ∧ DifferInOneBit (gray 2147483647) (gray 2147483648))
      ∧ (1 ≤ 32 ∧ 32 ≤ 32
          ∧ Set.BijOn gray (Set.Iio (2 ^ 32)) (Set.Iio (2 ^ 32))
          ∧ DifferInOneBit (gray 0) (gray (2 ^ 32 - 1))
          ∧ 4294967295 < 2 ^ 32
          ∧ DifferInOneBit (gray 4294967295) (gray ((4294967295 + 1) % 2 ^ 32))) :=
  have haxis := gray_cyclic.2.2 32 (by decide) (by decide)
  ⟨⟨by decide, gray_cyclic.1 2863311530 (by decide)⟩,
    ⟨by decide, gray_cyclic.2.1 2147483647 (by decide)⟩,
    by decide, by decide, haxis.1, haxis.2.1, by decide, haxis.2.2 4294967295 (by decide)⟩

end Karnaugh
