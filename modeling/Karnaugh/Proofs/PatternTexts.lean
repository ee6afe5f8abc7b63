import Karnaugh.Pattern.Reading
import Karnaugh.Proofs.DisplayOrder

/-!
# Patterns and their texts

A text of two to six of the characters `0`, `1` and `-` is read as a pattern. Reading
goes by way of numbers: the characters make up a mask and a value, the first of them
the leading digits, and the pattern is made from these. It requires what the characters
say (`Pattern.bitsOfMask_number`), so that it is written as the text it was read from.

Length, mask and value are kept in 32 bits, and what is beyond is lost. In a text of
2³² characters and more, characters may therefore be **overlooked**: their number counts
for nothing, and so do they, the last of them apart. What is read is exactly what has
nothing but overlooked characters before two to six others
(`Pattern.ofText_eq_ok_iff`). A text whose length fits 32 bits has no such characters
(`Pattern.ofText_spelling`), a longer one may have
(`Pattern.exists_ofText_overlooked`).
-/

namespace Karnaugh.Pattern

open Text

/-! ## Rows of requirements as numbers -/

theorem number_append (f : Option Bool → Bool) (as bs : List (Option Bool)) :
    number f (as ++ bs) = number f as * 2 ^ bs.length + number f bs := by
  induction as with
  | nil => rw [number, Nat.zero_mul, Nat.zero_add, List.nil_append]
  | cons r as ih =>
    rw [List.cons_append, number, number, ih, List.length_append, Nat.add_mul, Nat.add_assoc]
    cases f r with
    | true =>
      show 2 ^ (as.length + bs.length) + _ = 2 ^ as.length * 2 ^ bs.length + _
      rw [pow_add]
    | false =>
      show 0 + _ = 0 * 2 ^ bs.length + _
      rw [Nat.zero_mul]

theorem number_lt (f : Option Bool → Bool) (bits : List (Option Bool)) :
    number f bits < 2 ^ bits.length := by
  induction bits with
  | nil => exact Nat.one_pos
  | cons r rest ih =>
    have hdigit : (if f r then Nat.pow 2 rest.length else 0) ≤ 2 ^ rest.length := by
      split
      · exact Nat.le_refl _
      · exact Nat.zero_le _
    rw [number, List.length_cons, Nat.pow_succ, Nat.mul_two]
    exact Nat.add_lt_add_of_le_of_lt hdigit ih

theorem number_eq_zero_iff {f : Option Bool → Bool} {bits : List (Option Bool)} :
    number f bits = 0 ↔ ∀ r ∈ bits, f r = false := by
  induction bits with
  | nil => exact iff_of_true rfl fun _ h => absurd h List.not_mem_nil
  | cons r rest ih =>
    rw [number, Nat.add_eq_zero_iff, ih, List.forall_mem_cons]
    refine and_congr_left fun _ => ?_
    cases f r with
    | true => exact iff_of_false (Nat.two_pow_pos rest.length).ne' Bool.false_ne_true.symm
    | false => exact iff_of_true rfl rfl

/-- **The digits of the number** are the positions of the row, the first position the
leading one. -/
theorem testBit_number {f : Option Bool → Bool} {bits : List (Option Bool)} {i : Nat}
    {r : Option Bool} (hi : bits[i]? = some r) :
    (number f bits).testBit (bits.length - 1 - i) = f r := by
  induction bits generalizing i with
  | nil => cases hi
  | cons s rest ih =>
    rw [number, List.length_cons, Nat.add_sub_cancel]
    cases i with
    | zero =>
      obtain rfl : s = r := Option.some.inj hi
      have hrest : (number f rest).testBit rest.length = false :=
        Nat.testBit_eq_false_of_lt (number_lt f rest)
      cases hs : f s with
      | true =>
        show (2 ^ rest.length + number f rest).testBit rest.length = true
        rw [Nat.testBit_two_pow_add_eq, hrest]
        rfl
      | false =>
        show (0 + number f rest).testBit rest.length = false
        rw [Nat.zero_add, hrest]
    | succ i =>
      have hi : rest[i]? = some r := hi
      have hlt := (List.getElem?_eq_some_iff.mp hi).1
      have hplace : rest.length - (i + 1) = rest.length - 1 - i := by omega
      rw [hplace, ← ih hi]
      cases f s with
      | true => exact Nat.testBit_two_pow_add_gt (by omega) (number f rest)
      | false => exact congrArg (Nat.testBit · (rest.length - 1 - i)) (Nat.zero_add _)

/-- **A row is known by its mask and its value.** -/
theorem bitsOfMask_number (bits : List (Option Bool)) :
    bitsOfMask bits.length (number Option.isSome bits) (number (· == some true) bits) = bits := by
  refine List.ext_getElem (length_bitsOfMask _ _ _) fun i _ hi => ?_
  have hbit : bits[i]? = some bits[i] := List.getElem?_eq_getElem hi
  simp only [bitsOfMask, List.getElem_map, List.getElem_range, testBit_number hbit]
  cases bits[i] with
  | none => rfl
  | some b => cases b <;> rfl

/-! ## What 32 bits keep -/

/-- The positions of a row that still count when `n` others stand after them. -/
def kept (n : Nat) (row : List α) : List α := row.drop (row.length - (32 - n))

/-- **What is left of a number in 32 bits**, where the row ends with a few positions
that stand after a multiple of 2³² others. -/
theorem number_mod_wordBound (f : Option Bool → Bool) {before bits : List (Option Bool)}
    (hbefore : wordBound ∣ before.length) (hbits : bits.length ≤ maxVariables) :
    number f (before ++ bits) % wordBound
      = number f (kept bits.length before) * 2 ^ bits.length + number f bits := by
  have hword : wordBound = 2 ^ 32 := rfl
  set lost := before.take (before.length - (32 - bits.length))
  set last := kept bits.length before
  have hcut : lost ++ last = before := List.take_append_drop _ _
  have hsum : number f (before ++ bits)
      = number f lost * 2 ^ (last.length + bits.length) + number f (last ++ bits) := by
    rw [← hcut, List.append_assoc, number_append, List.length_append]
  have hlength : last.length ≤ 32 - bits.length := by
    simp only [last, kept, List.length_drop]
    omega
  have hlt : number f (last ++ bits) < wordBound := by
    refine (number_lt f _).trans_le (Nat.pow_le_pow_right Nat.two_pos ?_)
    rw [List.length_append]
    have := hbits.trans (show maxVariables ≤ 32 by decide)
    omega
  rw [hsum, ← number_append]
  rcases Nat.eq_zero_or_pos before.length with hzero | hpos
  · -- nothing stands before
    have hnil : lost = [] := List.eq_nil_of_length_eq_zero (by simp [lost, hzero])
    rw [hnil, number, Nat.zero_mul, Nat.zero_add, Nat.mod_eq_of_lt hlt]
  · have hle := Nat.le_of_dvd hpos hbefore
    have hall : last.length + bits.length = 32 := by
      have h32 : (32 : Nat) ≤ wordBound := by decide
      have := hbits.trans (show maxVariables ≤ 32 by decide)
      simp only [last, kept, List.length_drop]
      omega
    rw [hall, ← hword, Nat.mul_add_mod_self_right, Nat.mod_eq_of_lt hlt]

/-! ## Reading -/

/-- **The characters of patterns.** -/
def IsSymbol (c : Char) : Prop := c = '0' ∨ c = '1' ∨ c = '-'

theorem ofChar?_bitChar (r : Option Bool) : ofChar? (bitChar r) = some r := by
  rcases r with _ | _ | _ <;> rfl

theorem isSymbol_bitChar (r : Option Bool) : IsSymbol (bitChar r) := by
  rcases r with _ | _ | _
  · exact .inr (.inr rfl)
  · exact .inl rfl
  · exact .inr (.inl rfl)

theorem bitChar_of_ofChar? {c : Char} {r : Option Bool} (h : ofChar? c = some r) :
    bitChar r = c := by
  unfold ofChar? at h
  split at h
  · exact Option.some.inj h ▸ rfl
  · exact Option.some.inj h ▸ rfl
  · exact Option.some.inj h ▸ rfl
  · cases h

theorem readBits_map_bitChar (bits : List (Option Bool)) :
    readBits (bits.map bitChar) = .ok bits := by
  induction bits with
  | nil => rfl
  | cons r rest ih =>
    rw [List.map_cons, readBits, ofChar?_bitChar, ih]
    rfl

/-- **What is read as a row** are the characters of its requirements. -/
theorem readBits_eq_ok_iff {chars : List Char} {bits : List (Option Bool)} :
    readBits chars = .ok bits ↔ bits.map bitChar = chars := by
  refine ⟨fun h => ?_, fun h => h ▸ readBits_map_bitChar bits⟩
  induction chars generalizing bits with
  | nil =>
    cases h
    rfl
  | cons c rest ih =>
    rw [readBits] at h
    cases hc : ofChar? c with
    | none =>
      rw [hc] at h
      cases h
    | some r =>
      rw [hc] at h
      cases hrest : readBits rest with
      | error e =>
        rw [hrest] at h
        cases h
      | ok more =>
        rw [hrest] at h
        cases h
        rw [List.map_cons, bitChar_of_ofChar? hc, ih hrest]

theorem exists_map_bitChar_eq_iff {chars : List Char} :
    (∃ bits : List (Option Bool), bits.map bitChar = chars) ↔ ∀ c ∈ chars, IsSymbol c := by
  constructor
  · rintro ⟨bits, rfl⟩
    exact List.forall_mem_map.mpr fun r _ => isSymbol_bitChar r
  · intro h
    induction chars with
    | nil => exact ⟨[], rfl⟩
    | cons c rest ih =>
      obtain ⟨hc, hrest⟩ := List.forall_mem_cons.mp h
      obtain ⟨bits, rfl⟩ := ih hrest
      rcases hc with rfl | rfl | rfl
      · exact ⟨some false :: bits, rfl⟩
      · exact ⟨some true :: bits, rfl⟩
      · exact ⟨none :: bits, rfl⟩

/-- **Characters are overlooked** before `n` others if there are as many as 32 bits do
not count, and the last of them, which 32 bits still have, require nothing. -/
structure Overlooked (n : Nat) (before : List Char) : Prop where
  /-- Their number is lost. -/
  dvd_length : wordBound ∣ before.length
  /-- They are characters of patterns all the same. -/
  isSymbol : ∀ c ∈ before, IsSymbol c
  /-- What is kept of them fixes nothing. -/
  kept_open : ∀ c ∈ kept n before, c = '-'

theorem kept_map {α β : Type} (f : α → β) (n : Nat) (row : List α) :
    kept n (row.map f) = (kept n row).map f := by
  rw [kept, kept, List.length_map, List.map_drop]

/-- What is kept of a row is open if the mask has nothing but the row after it. -/
theorem mask_lt_iff {before bits : List (Option Bool)} (hbefore : wordBound ∣ before.length)
    (hbits : bits.length ≤ maxVariables) :
    number Option.isSome (before ++ bits) % wordBound < inputCount bits.length
      ↔ ∀ r ∈ kept bits.length before, r = none := by
  have hnone : ∀ r : Option Bool, r.isSome = false ↔ r = none := fun r => by
    cases r <;> simp
  rw [number_mod_wordBound _ hbefore hbits]
  show _ < 2 ^ bits.length ↔ _
  refine Iff.trans ?_ (number_eq_zero_iff.trans (forall₂_congr fun r _ => hnone r))
  constructor
  · intro hlt
    by_contra hne
    have hle := Nat.le_mul_of_pos_left (2 ^ bits.length) (Nat.pos_of_ne_zero hne)
    exact absurd ((hle.trans (Nat.le_add_right _ _)).trans_lt hlt) (Nat.lt_irrefl _)
  · intro hzero
    rw [hzero, Nat.zero_mul, Nat.zero_add]
    exact number_lt _ bits

/-- A row that stands after what is overlooked is made into a pattern as it is. -/
theorem ofMask_eq_ok_iff {before bits : List (Option Bool)} {p : Pattern}
    (hbefore : wordBound ∣ before.length) (two_le : minVariables ≤ bits.length)
    (le_six : bits.length ≤ maxVariables) :
    ofMask bits.length (number Option.isSome (before ++ bits) % wordBound)
        (number (· == some true) (before ++ bits) % wordBound) = .ok p
      ↔ (∀ r ∈ kept bits.length before, r = none) ∧ p.bits = bits := by
  rw [ofMask, dif_pos ⟨two_le, le_six⟩]
  by_cases hopen : ∀ r ∈ kept bits.length before, r = none
  · have hnumber : ∀ f : Option Bool → Bool, f none = false →
        number f (before ++ bits) % wordBound = number f bits := fun f hf => by
      have hzero : number f (kept bits.length before) = 0 :=
        number_eq_zero_iff.mpr fun r hr => hopen r hr ▸ hf
      rw [number_mod_wordBound f hbefore le_six, hzero, Nat.zero_mul, Nat.zero_add]
    rw [if_pos ((mask_lt_iff hbefore le_six).mpr hopen), and_iff_right hopen, Except.ok.injEq]
    have hbits : bitsOfMask bits.length (number Option.isSome (before ++ bits) % wordBound)
        (number (· == some true) (before ++ bits) % wordBound) = bits := by
      rw [hnumber _ rfl, hnumber _ rfl, bitsOfMask_number]
    exact ⟨fun h => h ▸ hbits, fun h => ext_bits (hbits.trans h.symm)⟩
  · rw [if_neg (mt (mask_lt_iff hbefore le_six).mp hopen)]
    exact iff_of_false nofun fun h => hopen h.1

theorem ofText_of_map {text : String} {before bits : List (Option Bool)}
    (htext : text.toList = (before ++ bits).map bitChar) (hbefore : wordBound ∣ before.length)
    (two_le : minVariables ≤ bits.length) (le_six : bits.length ≤ maxVariables) :
    ofText text
      = ofMask bits.length (number Option.isSome (before ++ bits) % wordBound)
          (number (· == some true) (before ++ bits) % wordBound) := by
  have hlength : text.toList.length % wordBound = bits.length := by
    obtain ⟨k, hk⟩ := hbefore
    rw [htext, List.length_map, List.length_append, hk, Nat.mul_add_mod_self_left]
    exact Nat.mod_eq_of_lt (le_six.trans_lt (by decide))
  simp only [ofText, hlength]
  rw [if_pos ⟨two_le, le_six⟩, htext, readBits_map_bitChar]

/-- **What is read as a pattern** are the characters of the pattern, after others that
are overlooked. -/
theorem ofText_eq_ok_iff {text : String} {p : Pattern} :
    ofText text = .ok p
      ↔ ∃ before, Overlooked p.numVars before ∧ text.toList = before ++ p.toChars := by
  constructor
  · intro h
    set n := text.toList.length % wordBound with hn
    by_cases hrange : minVariables ≤ n ∧ n ≤ maxVariables
    · cases hread : readBits text.toList with
      | error c =>
        simp only [ofText, ← hn, hread, if_pos hrange] at h
        cases h
      | ok bits =>
        have hmap := readBits_eq_ok_iff.mp hread
        have hlength : bits.length = text.toList.length := by rw [← hmap, List.length_map]
        -- the last `n` characters are those of the pattern
        set before := bits.take (bits.length - n)
        set last := bits.drop (bits.length - n)
        have hcut : before ++ last = bits := List.take_append_drop _ _
        have hle : n ≤ bits.length := hlength ▸ Nat.mod_le _ _
        have hlast : last.length = n := by
          rw [List.length_drop, Nat.sub_sub_self hle]
        have hdvd : wordBound ∣ before.length := by
          rw [List.length_take, Nat.min_eq_left (Nat.sub_le _ _), hlength]
          exact Nat.dvd_sub_mod _
        rw [ofText_of_map (by rw [hcut, hmap]) hdvd (hlast ▸ hrange.1) (hlast ▸ hrange.2),
          ofMask_eq_ok_iff hdvd (hlast ▸ hrange.1) (hlast ▸ hrange.2)] at h
        obtain ⟨hopen, hbits⟩ := h
        refine ⟨before.map bitChar, ⟨by rwa [List.length_map], ?_, ?_⟩, ?_⟩
        · exact exists_map_bitChar_eq_iff.mp ⟨before, rfl⟩
        · rw [kept_map, numVars, hbits]
          exact List.forall_mem_map.mpr fun r hr => hopen r hr ▸ rfl
        · rw [toChars, hbits, ← List.map_append, hcut, hmap]
    · simp only [ofText, ← hn, if_neg hrange] at h
      cases h
  · rintro ⟨before, hover, htext⟩
    obtain ⟨row, rfl⟩ := exists_map_bitChar_eq_iff.mpr hover.isSymbol
    have hdvd : wordBound ∣ row.length := by
      rw [← List.length_map bitChar]
      exact hover.dvd_length
    rw [toChars, ← List.map_append] at htext
    rw [ofText_of_map htext hdvd p.two_le p.le_six, ofMask_eq_ok_iff hdvd p.two_le p.le_six]
    refine ⟨fun r hr => bitChar_injective ?_, rfl⟩
    have hkept := hover.kept_open
    rw [kept_map] at hkept
    exact List.forall_mem_map.mp hkept r hr

/-! ## What a pattern says -/

/-- **A pattern is spelled by characters** if it is written as these, requires of each
variable what its character says, and covers the minterms with these digits: the first
character is about the leading one. -/
structure Spells (p : Pattern) (chars : List Char) : Prop where
  /-- It is written so. -/
  toList_toText : p.toText.toList = chars
  /-- What it requires at a place is what the character there says. -/
  bit_iff : ∀ i c, chars[i]? = some c → (p.bit i = some true ↔ c = '1')
    ∧ (p.bit i = some false ↔ c = '0') ∧ (p.bit i = none ↔ c = '-')
  /-- What it covers has the digits that are fixed. -/
  covers_iff : ∀ m, p.covers m = true ↔ m < 2 ^ chars.length
    ∧ ∀ i c, chars[i]? = some c → (c = '1' → m.testBit (chars.length - 1 - i) = true)
      ∧ (c = '0' → m.testBit (chars.length - 1 - i) = false)

variable {p : Pattern}

/-- What a character asks of a digit is what its requirement does. -/
theorem digit_iff {r : Option Bool} {digit : Bool} :
    ((bitChar r = '1' → digit = true) ∧ (bitChar r = '0' → digit = false))
      ↔ ∀ b, r = some b → digit = b := by
  rcases r with _ | _ | _ <;> cases digit <;> simp [bitChar]

/-- **A pattern is spelled by its own characters.** -/
theorem spells_toChars (p : Pattern) : p.Spells p.toChars where
  toList_toText := String.toList_ofList
  bit_iff i c hc := by
    rw [toChars, List.getElem?_map, Option.map_eq_some_iff] at hc
    obtain ⟨r, hr, rfl⟩ := hc
    rw [bit, hr]
    rcases r with _ | _ | _ <;> simp [bitChar]
  covers_iff m := by
    rw [Pattern.covers_iff, agrees_iff, toChars, List.length_map]
    refine and_congr_right fun _ => ⟨fun h i c hc => ?_, fun h i b hi => ?_⟩
    · rw [List.getElem?_map, Option.map_eq_some_iff] at hc
      obtain ⟨r, hr, rfl⟩ := hc
      exact digit_iff.mpr fun b hb => h i b (hb ▸ hr)
    · refine digit_iff.mp (h i (bitChar (some b)) ?_) b rfl
      rw [List.getElem?_map, hi]
      rfl

/-- **What is read as a pattern.** The last of the characters spell the pattern, and
those before them are overlooked. In a text whose length fits 32 bits none are. Such a
text is read exactly if it has two to six characters, all of them `0`, `1` or `-`, and
then it spells the pattern as a whole. -/
theorem ofText_spelling (text : String) :
    (∀ p, ofText text = .ok p ↔ ∃ before chars, text.toList = before ++ chars
        ∧ Overlooked chars.length before ∧ p.Spells chars)
      ∧ (text.toList.length < 2 ^ 32 →
        ((∃ p, ofText text = .ok p) ↔ 2 ≤ text.toList.length ∧ text.toList.length ≤ 6
            ∧ ∀ c ∈ text.toList, IsSymbol c)
          ∧ ∀ p, ofText text = .ok p → p.Spells text.toList) := by
  have hlength : ∀ p : Pattern, p.toChars.length = p.numVars := fun p => List.length_map bitChar
  have hread : ∀ p, ofText text = .ok p ↔ ∃ before chars, text.toList = before ++ chars
      ∧ Overlooked chars.length before ∧ p.Spells chars := fun p => by
    rw [ofText_eq_ok_iff]
    constructor
    · rintro ⟨before, hover, htext⟩
      exact ⟨before, p.toChars, htext, (hlength p).symm ▸ hover, spells_toChars p⟩
    · rintro ⟨before, chars, htext, hover, hspells⟩
      obtain rfl : p.toChars = chars := String.toList_ofList.symm.trans hspells.toList_toText
      exact ⟨before, hlength p ▸ hover, htext⟩
  refine ⟨hread, fun hshort => ?_⟩
  -- as many characters as are overlooked do not fit
  have hspells : ∀ p, ofText text = .ok p → p.Spells text.toList := fun p hp => by
    obtain ⟨before, chars, htext, hover, hspells⟩ := (hread p).mp hp
    have hle : before.length ≤ text.toList.length := by
      rw [htext, List.length_append]
      exact Nat.le_add_right _ _
    have hnil : before = [] := List.eq_nil_of_length_eq_zero
      (Nat.eq_zero_of_dvd_of_lt hover.dvd_length (hle.trans_lt hshort))
    rwa [htext, hnil, List.nil_append]
  refine ⟨⟨fun ⟨p, hp⟩ => ?_, fun ⟨two_le, le_six, hall⟩ => ?_⟩, hspells⟩
  · have htext : p.toChars = text.toList :=
      String.toList_ofList.symm.trans (hspells p hp).toList_toText
    rw [← htext, hlength]
    exact ⟨p.two_le, p.le_six, exists_map_bitChar_eq_iff.mp ⟨p.bits, rfl⟩⟩
  · obtain ⟨bits, hbits⟩ := exists_map_bitChar_eq_iff.mpr hall
    have hsame : bits.length = text.toList.length := by rw [← hbits, List.length_map]
    set p : Pattern := ⟨bits, hsame ▸ two_le, hsame ▸ le_six⟩
    have hp : p.toChars = text.toList := hbits
    refine ⟨p, (hread p).mpr ⟨[], text.toList, rfl, ⟨Nat.dvd_zero _, ?_, ?_⟩, ?_⟩⟩
    · exact fun c hc => absurd hc List.not_mem_nil
    · exact fun c hc => absurd (List.mem_of_mem_drop hc) List.not_mem_nil
    · exact hp ▸ spells_toChars p

/-- The theorem at a text of four characters. -/
theorem ofText_spelling_oneOpen :
    "1-0-".toList.length < 2 ^ 32
      ∧ ∃ p, ofText "1-0-" = .ok p ∧ p.Spells "1-0-".toList ∧ p.covered = [8, 9, 12, 13] := by
  obtain ⟨-, hshort⟩ := ofText_spelling "1-0-"
  have hlt : "1-0-".toList.length < 2 ^ 32 := by decide
  have hok : ofText "1-0-"
      = .ok ⟨[some true, none, some false, none], by decide, by decide⟩ := by rfl
  exact ⟨hlt, _, hok, (hshort hlt).2 _ hok, by decide⟩

/-- **Characters beyond 32 bits are overlooked.** After 2³² open positions the text `10`
is read as the pattern of these two characters alone. -/
theorem exists_ofText_overlooked :
    ∃ text p, text = String.ofList (List.replicate (2 ^ 32) '-' ++ ['1', '0'])
      ∧ text.toList.length = 2 ^ 32 + 2 ∧ ofText text = .ok p ∧ p.toText = "10" := by
  refine ⟨_, ⟨[some true, some false], by decide, by decide⟩, rfl, ?_,
    ofText_eq_ok_iff.mpr ⟨List.replicate (2 ^ 32) '-', ⟨?_, ?_, ?_⟩, String.toList_ofList⟩, rfl⟩
  · rw [String.toList_ofList, List.length_append, List.length_replicate]
    rfl
  · rw [List.length_replicate]
    exact Nat.dvd_refl _
  · exact fun c hc => .inr (.inr (List.eq_of_mem_replicate hc))
  · exact fun c hc => List.eq_of_mem_replicate (List.mem_of_mem_drop hc)

end Karnaugh.Pattern
