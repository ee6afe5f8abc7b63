import Karnaugh.Decimal.Shortest

/-!
# How numbers are written

Numbers are written in three styles, one for drawings and one for each of
the two file formats. All of them take the shortest digits that read back.
They differ in which numbers get an exponent, in whether a whole number
shows that it is a coordinate, and in the words for what is no number.

A decimal `0.d₁d₂d₃… * 10 ^ point` is *positional* when the digits are
written out around the point, with zeros where need be.
-/

namespace Karnaugh.Decimal

/-- **A style of writing numbers.** -/
structure Style where
  /-- Which of two equally near decimals is written. -/
  tie : Tie
  /-- Whether a number with its decimal point at this place is written
  positionally. -/
  positional : Int → Bool
  /-- What follows a whole number written positionally. -/
  wholeEnd : String
  /-- What stands before an exponent that is not negative. -/
  plus : String
  /-- The word for what is no number. -/
  nan : String
  /-- The word for infinity. -/
  infinity : String
  /-- The word for negative infinity. -/
  negativeInfinity : String

/-- **Numbers in drawings and messages** never have an exponent. -/
def Style.plain : Style where
  tie := .up
  positional := fun _ => true
  wholeEnd := ""
  plus := ""
  nan := "NaN"
  infinity := "inf"
  negativeInfinity := "-inf"

/-- **Numbers in JSON** have an exponent with a sign when they are very
large or very small, and a fraction otherwise. What is no number is
`null`. -/
def Style.json : Style where
  tie := .even
  positional := fun point => -5 < point ∧ point ≤ 16
  wholeEnd := ".0"
  plus := "+"
  nan := "null"
  infinity := "null"
  negativeInfinity := "null"

/-- **Numbers in YAML** are those of JSON, but with words for what is no
number, and with no sign before an exponent that is not negative. -/
def Style.yaml : Style where
  tie := .even
  positional := fun point => -5 < point ∧ point ≤ 16
  wholeEnd := ".0"
  plus := ""
  nan := ".nan"
  infinity := ".inf"
  negativeInfinity := "-.inf"

/-- Zeros as text. -/
def zeros (n : Int) : List Char := List.replicate n.toNat '0'

/-- Digits around the decimal point. -/
def positionalChars (wholeEnd : String) (digits : List Char) (point : Int) : List Char :=
  if point ≤ 0 then
    '0' :: '.' :: zeros (-point) ++ digits
  else if digits.length ≤ point then
    digits ++ zeros (point - digits.length) ++ wholeEnd.toList
  else
    digits.take point.toNat ++ '.' :: digits.drop point.toNat

/-- Digits with the point after the first, and an exponent. -/
def exponentChars (plus : String) (digits : List Char) (point : Int) : List Char :=
  let mantissa := match digits with
    | first :: second :: rest => first :: '.' :: second :: rest
    | short => short
  let sign := if point < 1 then "-" else plus
  mantissa ++ 'e' :: sign.toList ++ Nat.toDigits 10 (point - 1).natAbs

/-- A positive decimal in a style. -/
def Style.writeScientific (style : Style) (d : Scientific) : List Char :=
  let digits := Nat.toDigits 10 d.coefficient
  let point := d.exponent + digits.length
  if style.positional point then positionalChars style.wholeEnd digits point
  else exponentChars style.plus digits point

/-- **Writes a number** in a style. Zero has a sign too. -/
def Style.write (style : Style) (x : Float) : String :=
  match Parts.of x with
  | .nan => style.nan
  | .infinite false => style.infinity
  | .infinite true => style.negativeInfinity
  | .finite negative mantissa exponent =>
    let magnitude :=
      if mantissa = 0 then '0' :: style.wholeEnd.toList
      else style.writeScientific (shortest style.tie mantissa exponent)
    String.ofList (if negative then '-' :: magnitude else magnitude)

/-- A number as it is written in drawings and messages. -/
def plain (x : Float) : String := Style.plain.write x

/-! ## The characters of numbers in drawings -/

/-- **The characters of numbers in drawings**: digits, the sign, the point and the
letters of the words for what is no number. -/
def isFigure (c : Char) : Bool :=
  c.isDigit || ['-', '.', 'N', 'a', 'n', 'i', 'f'].contains c

theorem isFigure_of_mem_toDigits {c : Char} {n : Nat} (h : c ∈ Nat.toDigits 10 n) :
    isFigure c = true :=
  Bool.or_eq_true_iff.mpr (.inl (Nat.isDigit_of_mem_toDigits (by decide) (by decide) h))

theorem isFigure_of_mem_zeros {c : Char} {n : Int} (h : c ∈ zeros n) : isFigure c = true :=
  List.eq_of_mem_replicate h ▸ rfl

/-- Around the decimal point there are the digits, zeros and the point. -/
theorem isFigure_of_mem_positionalChars {digits : List Char} {point : Int}
    (hdigits : ∀ c ∈ digits, isFigure c = true) :
    ∀ c ∈ positionalChars "" digits point, isFigure c = true := by
  intro c hc
  unfold positionalChars at hc
  split at hc
  · rcases List.mem_cons.mp hc with rfl | hc
    · rfl
    · rcases List.mem_cons.mp hc with rfl | hc
      · rfl
      · exact (List.mem_append.mp hc).elim isFigure_of_mem_zeros (hdigits c)
  · split at hc
    · rw [String.toList_empty, List.append_nil] at hc
      exact (List.mem_append.mp hc).elim (hdigits c) isFigure_of_mem_zeros
    · rcases List.mem_append.mp hc with hc | hc
      · exact hdigits c (List.mem_of_mem_take hc)
      · rcases List.mem_cons.mp hc with rfl | hc
        · rfl
        · exact hdigits c (List.mem_of_mem_drop hc)

theorem positionalChars_ne_nil {digits : List Char} (hne : digits ≠ []) (point : Int) :
    positionalChars "" digits point ≠ [] := by
  unfold positionalChars
  split
  · exact List.cons_ne_nil _ _
  · split
    · exact List.append_ne_nil_of_left_ne_nil (List.append_ne_nil_of_left_ne_nil hne _) _
    · exact List.append_ne_nil_of_right_ne_nil _ (List.cons_ne_nil _ _)

/-- **A number in a drawing** has these characters and no others, and one at least. -/
theorem plain_spec (x : Float) :
    (plain x).toList ≠ [] ∧ ∀ c ∈ (plain x).toList, isFigure c = true := by
  unfold plain Style.write
  split
  · exact ⟨by decide, List.all_eq_true.mp (by decide)⟩
  · exact ⟨by decide, List.all_eq_true.mp (by decide)⟩
  · exact ⟨by decide, List.all_eq_true.mp (by decide)⟩
  next negative mantissa exponent hparts =>
    rw [String.toList_ofList]
    -- the sign apart, there is a magnitude
    have hmagnitude : ∀ magnitude : List Char, magnitude ≠ [] →
        (∀ c ∈ magnitude, isFigure c = true) →
        (if negative then '-' :: magnitude else magnitude) ≠ []
          ∧ ∀ c ∈ (if negative then '-' :: magnitude else magnitude), isFigure c = true := by
      intro magnitude hne hall
      cases negative with
      | false => exact ⟨hne, hall⟩
      | true => exact ⟨List.cons_ne_nil _ _, List.forall_mem_cons.mpr ⟨rfl, hall⟩⟩
    apply hmagnitude
    · split
      · exact List.cons_ne_nil _ _
      · exact positionalChars_ne_nil Nat.toDigits_ne_nil _
    · split
      · exact List.forall_mem_cons.mpr ⟨rfl, nofun⟩
      · exact isFigure_of_mem_positionalChars fun c => isFigure_of_mem_toDigits

end Karnaugh.Decimal
