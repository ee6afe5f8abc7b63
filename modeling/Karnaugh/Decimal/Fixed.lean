import Karnaugh.Decimal.Style
import Karnaugh.Text.Pad

/-!
# A fixed number of places

The strength of a stroke is written with two places. The exact value of
the number is rounded, and a half goes to the even neighbour.
-/

namespace Karnaugh.Decimal

/-- The whole number nearest to `num / den`, the even one of two. -/
def roundDiv (num den : Nat) : Nat :=
  nearer .even (num / den) num den

/-- **Writes a number with a fixed number of places**, one at least. -/
def fixed (places : Nat) (x : Float) : String :=
  match Parts.of x with
  | .nan => Style.plain.nan
  | .infinite false => Style.plain.infinity
  | .infinite true => Style.plain.negativeInfinity
  | .finite negative mantissa exponent =>
    let scaled := roundDiv (mantissa * Nat.pow 2 (exponent - 1074) * Nat.pow 10 places)
      (Nat.pow 2 (1074 - exponent))
    let digits := Text.zeroFill (places + 1) (Nat.toDigits 10 scaled)
    let whole := digits.take (digits.length - places)
    let fraction := digits.drop (digits.length - places)
    let sign := if negative then ['-'] else []
    String.ofList (sign ++ whole ++ '.' :: fraction)

/-- Such a number has the characters of numbers in drawings, too. -/
theorem isFigure_of_mem_fixed (places : Nat) (x : Float) :
    ∀ c ∈ (fixed places x).toList, isFigure c = true := by
  unfold fixed
  split
  · exact List.all_eq_true.mp (by decide)
  · exact List.all_eq_true.mp (by decide)
  · exact List.all_eq_true.mp (by decide)
  next negative mantissa exponent hparts =>
    dsimp only
    generalize roundDiv _ _ = scaled
    have hdigits : ∀ c ∈ Text.zeroFill (places + 1) (Nat.toDigits 10 scaled), isFigure c = true :=
      fun c hc => (List.mem_append.mp hc).elim (fun h => List.eq_of_mem_replicate h ▸ rfl)
        isFigure_of_mem_toDigits
    rw [String.toList_ofList]
    intro c hc
    rcases List.mem_append.mp hc with hc | hc
    · rcases List.mem_append.mp hc with hc | hc
      · cases negative with
        | false => exact absurd hc List.not_mem_nil
        | true => exact List.mem_singleton.mp hc ▸ rfl
      · exact hdigits c (List.mem_of_mem_take hc)
    · rcases List.mem_cons.mp hc with rfl | hc
      · rfl
      · exact hdigits c (List.mem_of_mem_drop hc)

end Karnaugh.Decimal
