/-!
# Numerals

Numbers are read from minterm lists, queries and the command line, and
written everywhere. A numeral is a row of decimal digits, perhaps after a
plus sign, and its value must stay below a bound: 2³² for minterms and
variable counts.

What is wrong with a text that is no numeral is decided from left to
right: the first character that is no digit, or the first digit at which
the value leaves the bound, whichever comes first. What is read are the
numerals below the bound, and nothing else (`readNumeral_eq_ok_iff`).
-/

namespace Karnaugh.Text

/-- **Why a text is no numeral.** -/
inductive NumeralFault where
  /-- There is nothing to read. -/
  | empty
  /-- A character is no digit, or a sign has no digits after it. -/
  | notADigit
  /-- The value is beyond the bound. -/
  | tooLarge
  deriving DecidableEq, Repr

/-- The fault in words. -/
def NumeralFault.message : NumeralFault → String
  | .empty => "cannot parse integer from empty string"
  | .notADigit => "invalid digit found in string"
  | .tooLarge => "number too large to fit in target type"

/-- The value of a decimal digit. -/
def digit? (c : Char) : Option Nat :=
  if '0' ≤ c ∧ c ≤ '9' then some (c.toNat - '0'.toNat) else none

/-- Reads the digits that follow a number already read. -/
def readDigits (bound : Nat) : Nat → List Char → Except NumeralFault Nat
  | value, [] => .ok value
  | value, c :: rest =>
    match digit? c with
    | none => .error .notADigit
    | some d =>
      if 10 * value + d < bound then readDigits bound (10 * value + d) rest
      else .error .tooLarge

/-- **Reads a numeral** whose value is below `bound`. One plus sign may
stand before the digits. -/
def readNumeral (bound : Nat) : List Char → Except NumeralFault Nat
  | [] => .error .empty
  | '+' :: [] => .error .notADigit
  | '+' :: digits => readDigits bound 0 digits
  | digits => readDigits bound 0 digits

/-- The bound of the numbers a map works with: they fit 32 bits. -/
def wordBound : Nat := Nat.pow 2 32

/-- **A number in decimal digits**, without leading zeros. -/
def numeral (n : Nat) : String := n.repr

/-- A number in binary digits, without leading zeros. -/
def binary (n : Nat) : List Char := Nat.toDigits 2 n

/-- Numbers in decimal, with a separator between each two. -/
def numerals (separator : String) (ns : List Nat) : String :=
  separator.intercalate (ns.map numeral)

/-- Numbers in decimal as a bracketed list, `[3, 4, 5]`. -/
def bracketed (ns : List Nat) : String :=
  "[" ++ numerals ", " ns ++ "]"

/-! ## What is read -/

/-- **A text is a numeral for a number**: digits of that value, perhaps after a plus
sign. -/
def IsNumeral (n : Nat) (text : List Char) : Prop :=
  ∃ digits, (text = digits ∨ text = '+' :: digits) ∧ digits ≠ []
    ∧ (∀ c ∈ digits, c.isDigit) ∧ Nat.ofDigitChars 10 digits 0 = n

theorem IsNumeral.ne_nil {n : Nat} {text : List Char} (h : IsNumeral n text) : text ≠ [] := by
  obtain ⟨digits, rfl | rfl, hne, -⟩ := h
  · exact hne
  · exact List.cons_ne_nil '+' digits

/-- A numeral is made of digits, the sign apart. -/
theorem IsNumeral.eq_or_isDigit {n : Nat} {text : List Char} (h : IsNumeral n text) :
    ∀ c ∈ text, c = '+' ∨ c.isDigit := by
  obtain ⟨digits, rfl | rfl, -, hall, -⟩ := h
  · exact fun c hc => .inr (hall c hc)
  · exact List.forall_mem_cons.mpr ⟨.inl rfl, fun c hc => .inr (hall c hc)⟩

/-- The digits are the characters from nought to nine. -/
theorem digit?_eq_some_iff {c : Char} {d : Nat} :
    digit? c = some d ↔ c.isDigit ∧ c.toNat - '0'.toNat = d := by
  rw [Char.isDigit, Bool.and_eq_true, decide_eq_true_eq, decide_eq_true_eq]
  show (if '0' ≤ c ∧ c ≤ '9' then some (c.toNat - '0'.toNat) else none) = some d
    ↔ ('0' ≤ c ∧ c ≤ '9') ∧ c.toNat - '0'.toNat = d
  by_cases h : '0' ≤ c ∧ c ≤ '9'
  · rw [if_pos h, Option.some.injEq, and_iff_right h]
  · rw [if_neg h]
    exact ⟨nofun, fun hd => absurd hd.1 h⟩

/-- The value grows with every digit. -/
theorem le_ofDigitChars (value : Nat) (digits : List Char) :
    value ≤ Nat.ofDigitChars 10 digits value := by
  rw [Nat.ofDigitChars_eq_ofDigitChars_zero]
  exact Nat.le_add_right_of_le (Nat.le_mul_of_pos_left value (Nat.pow_pos (by decide)))

/-- **What digits are read as**: their value, as long as it stays below the
bound. -/
theorem readDigits_eq_ok_iff {bound n : Nat} {digits : List Char} {value : Nat} :
    readDigits bound value digits = .ok n
      ↔ (∀ c ∈ digits, c.isDigit) ∧ Nat.ofDigitChars 10 digits value = n
        ∧ (digits = [] ∨ n < bound) := by
  induction digits generalizing value with
  | nil => simp [readDigits]
  | cons c rest ih =>
    rw [readDigits, List.forall_mem_cons, Nat.ofDigitChars_cons]
    cases hdigit : digit? c with
    | none =>
      have hc : ¬c.isDigit = true := fun hc => by
        rw [digit?_eq_some_iff.mpr ⟨hc, rfl⟩] at hdigit
        cases hdigit
      exact ⟨nofun, fun h => absurd h.1.1 hc⟩
    | some d =>
      obtain ⟨hc, rfl⟩ := digit?_eq_some_iff.mp hdigit
      have hle := le_ofDigitChars (10 * value + (c.toNat - '0'.toNat)) rest
      dsimp only
      split
      next hlt =>
        -- below the bound so far, the rest decides
        rw [ih]
        refine ⟨fun ⟨hrest, hn, hbound⟩ => ⟨⟨hc, hrest⟩, hn, .inr ?_⟩,
          fun ⟨⟨_, hrest⟩, hn, hbound⟩ => ⟨hrest, hn, .inr ?_⟩⟩
        · rcases hbound with rfl | hbound
          · exact hn ▸ hlt
          · exact hbound
        · exact hbound.resolve_left (List.cons_ne_nil c rest)
      next hge =>
        refine ⟨nofun, fun ⟨_, hn, hbound⟩ => ?_⟩
        have hlt := hbound.resolve_left (List.cons_ne_nil c rest)
        omega

/-- **What is read as a number**: the numerals for it, if it is below the bound. -/
theorem readNumeral_eq_ok_iff {bound n : Nat} {text : List Char} :
    readNumeral bound text = .ok n ↔ IsNumeral n text ∧ n < bound := by
  have hdigits : ∀ {digits : List Char}, digits ≠ [] →
      (readDigits bound 0 digits = .ok n
        ↔ ((∀ c ∈ digits, c.isDigit) ∧ Nat.ofDigitChars 10 digits 0 = n) ∧ n < bound) := by
    intro digits hne
    rw [readDigits_eq_ok_iff, or_iff_right hne, and_assoc]
  have hplus : ∀ rest, ¬∀ c ∈ '+' :: rest, c.isDigit := fun rest h =>
    absurd (h '+' List.mem_cons_self) (by decide)
  unfold readNumeral IsNumeral
  split
  next =>
    refine ⟨nofun, ?_⟩
    rintro ⟨⟨digits, rfl | h, hne, -⟩, -⟩
    · exact absurd rfl hne
    · cases h
  next =>
    refine ⟨nofun, ?_⟩
    rintro ⟨⟨digits, rfl | h, hne, hall, -⟩, -⟩
    · exact absurd hall (hplus [])
    · exact absurd (List.cons.inj h).2.symm hne
  next digits hne =>
    rw [hdigits hne]
    refine and_congr_left fun _ => ⟨fun h => ⟨digits, .inr rfl, hne, h⟩, ?_⟩
    rintro ⟨digits', rfl | h, -, hall, hvalue⟩
    · exact absurd hall (hplus digits)
    · cases h
      exact ⟨hall, hvalue⟩
  next hnil hsign hnosign =>
    rw [hdigits hnil]
    refine and_congr_left fun _ => ⟨fun h => ⟨text, .inl rfl, hnil, h⟩, ?_⟩
    rintro ⟨digits', rfl | rfl, hne, h⟩
    · exact h
    · exact absurd rfl (hnosign digits')

theorem isNumeral_numeral (n : Nat) : IsNumeral n (numeral n).toList := by
  rw [numeral, Nat.toList_repr]
  exact ⟨_, .inl rfl, Nat.toDigits_ne_nil,
    fun c hc => Nat.isDigit_of_mem_toDigits (by decide) (by decide) hc,
    Nat.ofDigitChars_ten_toDigits⟩

theorem toList_numerals (ns : List Nat) :
    (numerals "," ns).toList = [','].intercalate (ns.map fun n => (numeral n).toList) := by
  rw [numerals, String.toList_intercalate, List.map_map]
  rfl

end Karnaugh.Text
