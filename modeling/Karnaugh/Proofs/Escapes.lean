import Karnaugh.Text.Percent

/-!
# Escapes are undone

In a query any character may be written as the escapes of its bytes. This
module says which texts a text may be written as (`Escaped`), and that reading
gives back the text from each of them (`percentDecode_of_escaped`).

Reading goes through bytes, in two steps. Resolving the escapes gives the bytes
of the text: a character that is no percent sign has no byte that could start an
escape (`unescape_of_escaped`). Reading these bytes gives the text, as the bytes
of a character keep the bounds that each of them sets for the next
(`readUtf8_utf8`).
-/

namespace Karnaugh.Text

/-! ## Bytes of a text -/

/-- A first byte that shows nothing yet. -/
theorem readUtf8From_first {k : Nat} {state : Utf8State} (hk : k < 256)
    (h : firstByte k = ([], state)) (rest : List UInt8) :
    readUtf8From .start (UInt8.ofNat k :: rest) = readUtf8From state rest := by
  show (firstByte (UInt8.ofNat k).toNat).1
    ++ readUtf8From (firstByte (UInt8.ofNat k).toNat).2 rest = _
  rw [UInt8.toNat_ofNat_of_lt' hk, h]
  rfl

section Inside

variable {bits low high k : Nat} (hk : k < 256) (hlow : low ≤ k) (hhigh : k ≤ high)

include hk hlow hhigh

/-- **A byte within its bounds** adds six digits. -/
theorem readUtf8From_inside (owed : Nat) (rest : List UInt8) :
    readUtf8From (.inside bits (owed + 1) low high) (UInt8.ofNat k :: rest)
      = readUtf8From (.inside (64 * bits + (k - 0x80)) owed 0x80 0xBF) rest := by
  have hstep : nextByte (.inside bits (owed + 1) low high) (UInt8.ofNat k).toNat
      = ([], .inside (64 * bits + (k - 0x80)) owed 0x80 0xBF) := by
    rw [UInt8.toNat_ofNat_of_lt' hk]
    exact if_pos ⟨hlow, hhigh⟩
  rw [readUtf8From, hstep]
  rfl

/-- The last byte shows the character. -/
theorem readUtf8From_last (rest : List UInt8) :
    readUtf8From (.inside bits 0 low high) (UInt8.ofNat k :: rest)
      = Char.ofNat (64 * bits + (k - 0x80)) :: readUtf8From .start rest := by
  have hstep : nextByte (.inside bits 0 low high) (UInt8.ofNat k).toNat
      = ([Char.ofNat (64 * bits + (k - 0x80))], .start) := by
    rw [UInt8.toNat_ofNat_of_lt' hk]
    exact if_pos ⟨hlow, hhigh⟩
  rw [readUtf8From, hstep]
  rfl

end Inside

theorem firstByte_of_two {b : Nat} (h : 0xC2 ≤ b) (h' : b ≤ 0xDF) :
    firstByte b = ([], .inside (b - 0xC0) 0 0x80 0xBF) := by
  rw [firstByte, if_neg (by omega), if_pos ⟨h, h'⟩]

/-- **The first of three bytes** sets bounds that the second one keeps, as no
character is in the range left out. -/
theorem firstByte_of_three {v : Nat} (hge : 0x800 ≤ v) (hlt : v < 0x10000)
    (hvalid : v < 0xD800 ∨ 0xDFFF < v) :
    ∃ low high, firstByte (v / 4096 + 0xE0) = ([], .inside (v / 4096) 1 low high)
      ∧ low ≤ v / 64 % 64 + 0x80 ∧ v / 64 % 64 + 0x80 ≤ high := by
  unfold firstByte
  rw [if_neg (by omega), if_neg (by omega)]
  by_cases hfirst : v / 4096 = 0
  · rw [hfirst, if_pos rfl]
    exact ⟨_, _, rfl, by omega, by omega⟩
  · rw [if_neg (by omega)]
    by_cases hlast : v / 4096 = 0xD
    · rw [hlast, if_pos rfl]
      exact ⟨_, _, rfl, by omega, by omega⟩
    · rw [if_neg (by omega), if_pos (by omega), Nat.add_sub_cancel]
      exact ⟨_, _, rfl, by omega, by omega⟩

/-- **The first of four bytes** sets bounds that the second one keeps. -/
theorem firstByte_of_four {v : Nat} (hge : 0x10000 ≤ v) (hlt : v < 0x110000) :
    ∃ low high, firstByte (v / 262144 + 0xF0) = ([], .inside (v / 262144) 2 low high)
      ∧ low ≤ v / 4096 % 64 + 0x80 ∧ v / 4096 % 64 + 0x80 ≤ high := by
  unfold firstByte
  rw [if_neg (by omega), if_neg (by omega), if_neg (by omega), if_neg (by omega),
    if_neg (by omega)]
  by_cases hfirst : v / 262144 = 0
  · rw [hfirst, if_pos rfl]
    exact ⟨_, _, rfl, by omega, by omega⟩
  · rw [if_neg (by omega)]
    by_cases hlast : v / 262144 = 4
    · rw [hlast, if_neg (by decide), if_pos rfl]
      exact ⟨_, _, rfl, by omega, by omega⟩
    · rw [if_pos (by omega), Nat.add_sub_cancel]
      exact ⟨_, _, rfl, by omega, by omega⟩

/-- **The bytes of a character are read as the character.** -/
theorem readUtf8From_utf8EncodeChar (c : Char) (rest : List UInt8) :
    readUtf8From .start (String.utf8EncodeChar c ++ rest) = c :: readUtf8From .start rest := by
  have hvalid : c.toNat < 0xD800 ∨ 0xDFFF < c.toNat ∧ c.toNat < 0x110000 := c.valid
  have hchar : ∀ {v}, v = c.toNat → Char.ofNat v = c := fun hv => by
    rw [hv, Char.ofNat_toNat]
  unfold String.utf8EncodeChar
  simp only [show c.val.toNat = c.toNat from rfl]
  generalize c.toNat = v at *
  split
  · -- one byte, which shows the character at once
    show (firstByte (UInt8.ofNat v).toNat).1
      ++ readUtf8From (firstByte (UInt8.ofNat v).toNat).2 rest = _
    rw [UInt8.toNat_ofNat_of_lt' (show v < 256 by omega), firstByte, if_pos (by omega), hchar rfl]
    rfl
  split
  · -- two bytes
    rw [List.cons_append, List.singleton_append,
      readUtf8From_first (by omega) (firstByte_of_two (by omega) (by omega)),
      readUtf8From_last (by omega) (by omega) (by omega), hchar (by omega)]
  split
  · -- three bytes
    obtain ⟨low, high, hfirst, hlow, hhigh⟩ :=
      firstByte_of_three (v := v) (by omega) (by omega) (by omega)
    rw [Nat.mod_eq_of_lt (show v / 4096 < 16 by omega), List.cons_append, List.cons_append,
      List.singleton_append, readUtf8From_first (by omega) hfirst,
      readUtf8From_inside (by omega) hlow hhigh,
      readUtf8From_last (by omega) (by omega) (by omega), hchar (by omega)]
  · -- four bytes
    obtain ⟨low, high, hfirst, hlow, hhigh⟩ := firstByte_of_four (v := v) (by omega) (by omega)
    rw [Nat.mod_eq_of_lt (show v / 262144 < 8 by omega), List.cons_append, List.cons_append,
      List.cons_append, List.singleton_append, readUtf8From_first (by omega) hfirst,
      readUtf8From_inside (by omega) hlow hhigh,
      readUtf8From_inside (by omega) (by omega) (by omega),
      readUtf8From_last (by omega) (by omega) (by omega), hchar (by omega)]

/-- **Reading undoes writing** of a text in bytes. -/
theorem readUtf8_utf8 (text : List Char) : readUtf8 (utf8 text) = text := by
  rw [readUtf8, utf8]
  induction text with
  | nil => rfl
  | cons c rest ih => rw [List.flatMap_cons, readUtf8From_utf8EncodeChar, ih]

/-! ## Texts with escapes -/

/-- A hexadecimal digit, in either case. -/
def hexDigit (upper : Bool) (n : Nat) : Char :=
  Char.ofNat (if n < 10 then 0x30 + n else if upper then 0x41 + (n - 10) else 0x61 + (n - 10))

/-- **The escape of a byte**, each digit in a case of its own. -/
def escape (b : UInt8) (upper₁ upper₂ : Bool) : List Char :=
  ['%', hexDigit upper₁ (b.toNat / 16), hexDigit upper₂ (b.toNat % 16)]

/-- **A text is written as the escapes of bytes**, one after the other. -/
inductive Escapes : List UInt8 → List Char → Prop where
  /-- Nothing is written as nothing. -/
  | nil : Escapes [] []
  /-- A byte is written as its escape. -/
  | cons (b : UInt8) (upper₁ upper₂ : Bool) {bytes : List UInt8} {written : List Char}
      (rest : Escapes bytes written) : Escapes (b :: bytes) (escape b upper₁ upper₂ ++ written)

/-- **A text is written with some characters escaped.** A percent sign always
is, since it would start an escape. -/
inductive Escaped : List Char → List Char → Prop where
  /-- Nothing is written as nothing. -/
  | nil : Escaped [] []
  /-- A character is written as it is. -/
  | kept {c : Char} (h : c ≠ '%') {text written : List Char} (rest : Escaped text written) :
      Escaped (c :: text) (c :: written)
  /-- A character is written as the escapes of its bytes. -/
  | escaped {c : Char} {digits : List Char} (h : Escapes (String.utf8EncodeChar c) digits)
      {text written : List Char} (rest : Escaped text written) :
      Escaped (c :: text) (digits ++ written)

/-- A text without percent signs is written as it is. -/
theorem escaped_self {text : List Char} (h : '%' ∉ text) : Escaped text text := by
  induction text with
  | nil => exact .nil
  | cons c rest ih =>
    rw [List.mem_cons, not_or] at h
    exact .kept (Ne.symm h.1) (ih h.2)

theorem isAlphanum_hexDigit (upper : Bool) {n : Nat} (h : n < 16) :
    (hexDigit upper n).isAlphanum := by
  have hall : ∀ upper : Bool, ∀ n < 16, (hexDigit upper n).isAlphanum := by decide
  exact hall upper n h

theorem Escapes.isAlphanum {bytes : List UInt8} {written : List Char} (h : Escapes bytes written) :
    ∀ c ∈ written, c = '%' ∨ c.isAlphanum := by
  induction h with
  | nil => exact fun c hc => absurd hc List.not_mem_nil
  | cons b upper₁ upper₂ rest ih =>
    have hlt : b.toNat < 256 := b.toNat_lt
    intro c hc
    simp only [escape, List.cons_append, List.nil_append, List.mem_cons] at hc
    rcases hc with hc | hc | hc | hc
    · exact .inl hc
    · exact .inr (hc ▸ isAlphanum_hexDigit upper₁ (by omega))
    · exact .inr (hc ▸ isAlphanum_hexDigit upper₂ (by omega))
    · exact ih c hc

/-- Escaping brings in nothing but percent signs and digits. -/
theorem Escaped.mem_or {text written : List Char} (h : Escaped text written) :
    ∀ c ∈ written, c ∈ text ∨ c = '%' ∨ c.isAlphanum := by
  induction h with
  | nil => exact fun c hc => absurd hc List.not_mem_nil
  | kept hc rest ih =>
    refine List.forall_mem_cons.mpr ⟨.inl List.mem_cons_self, fun x hx => ?_⟩
    exact (ih x hx).imp_left (List.mem_cons_of_mem _)
  | escaped hdigits rest ih =>
    intro x hx
    rcases List.mem_append.mp hx with hx | hx
    · exact .inr (hdigits.isAlphanum x hx)
    · exact (ih x hx).imp_left (List.mem_cons_of_mem _)

/-! ## Resolving escapes -/

/-- A digit is one byte, which is read as the digit and is no plus sign. -/
theorem hexDigit?_hexDigit (upper : Bool) {n : Nat} (h : n < 16) :
    utf8 [hexDigit upper n] = [UInt8.ofNat (hexDigit upper n).toNat]
      ∧ hexDigit? (UInt8.ofNat (hexDigit upper n).toNat) = some n
      ∧ UInt8.ofNat (hexDigit upper n).toNat ≠ 0x2B := by
  have hall : ∀ upper : Bool, ∀ n < 16,
      utf8 [hexDigit upper n] = [UInt8.ofNat (hexDigit upper n).toNat]
        ∧ hexDigit? (UInt8.ofNat (hexDigit upper n).toNat) = some n
        ∧ UInt8.ofNat (hexDigit upper n).toNat ≠ 0x2B := by decide
  exact hall upper n h

/-- A byte that is no percent sign stands for itself. -/
theorem unescape_cons_of_ne {b : UInt8} (h : b ≠ 0x25) (rest : List UInt8) :
    unescape (b :: rest) = b :: unescape rest := by
  rcases rest with - | ⟨first, - | ⟨second, rest⟩⟩
  · rfl
  · rfl
  · have hguard : (guard (b = 0x25) : Option Unit) = none := if_neg h
    have hnone : escaped? b first second = none := by
      rw [escaped?, hguard]
      rfl
    rw [unescape, hnone]

theorem unescape_append_of_ne {bytes : List UInt8} (h : ∀ b ∈ bytes, b ≠ 0x25)
    (rest : List UInt8) : unescape (bytes ++ rest) = bytes ++ unescape rest := by
  induction bytes with
  | nil => rfl
  | cons b more ih =>
    rw [List.cons_append, unescape_cons_of_ne (h b List.mem_cons_self),
      ih fun x hx => h x (List.mem_cons_of_mem b hx), List.cons_append]

/-- Two digits after a percent sign are an escape. -/
theorem escaped?_of_digits {first second : UInt8} {high low : Nat}
    (hfirst : hexDigit? first = some high) (hsecond : hexDigit? second = some low)
    (hplus : first ≠ 0x2B) :
    escaped? 0x25 first second = some (UInt8.ofNat (16 * high + low)) := by
  have hguard : (guard ((0x25 : UInt8) = 0x25) : Option Unit) = some () := if_pos rfl
  rw [escaped?, hguard, hfirst, hsecond]
  exact if_neg hplus

/-- **An escape stands for its byte.** -/
theorem unescape_escape (b : UInt8) (upper₁ upper₂ : Bool) (rest : List UInt8) :
    unescape (utf8 (escape b upper₁ upper₂) ++ rest) = b :: unescape rest := by
  have hlt : b.toNat < 256 := b.toNat_lt
  obtain ⟨hfirst, hhigh, hplus⟩ := hexDigit?_hexDigit upper₁ (show b.toNat / 16 < 16 by omega)
  obtain ⟨hsecond, hlow, -⟩ := hexDigit?_hexDigit upper₂ (show b.toNat % 16 < 16 by omega)
  have hpercent : utf8 ['%'] = [0x25] := by decide
  have hbytes : utf8 (escape b upper₁ upper₂)
      = utf8 ['%'] ++ utf8 [hexDigit upper₁ (b.toNat / 16)]
        ++ utf8 [hexDigit upper₂ (b.toNat % 16)] := by
    simp [utf8, escape]
  have hvalue : escaped? 0x25 (UInt8.ofNat (hexDigit upper₁ (b.toNat / 16)).toNat)
      (UInt8.ofNat (hexDigit upper₂ (b.toNat % 16)).toNat) = some b := by
    rw [escaped?_of_digits hhigh hlow hplus, Nat.div_add_mod]
    exact congrArg some UInt8.ofNat_toNat
  rw [hbytes, hpercent, hfirst, hsecond, List.append_assoc, List.append_assoc,
    List.singleton_append, List.singleton_append, List.singleton_append, unescape, hvalue]

theorem unescape_of_escapes {bytes : List UInt8} {written : List Char} (h : Escapes bytes written)
    (rest : List UInt8) : unescape (utf8 written ++ rest) = bytes ++ unescape rest := by
  induction h with
  | nil => rfl
  | cons b upper₁ upper₂ more ih =>
    rw [utf8, List.flatMap_append, List.append_assoc, ← utf8, ← utf8, unescape_escape, ih,
      List.cons_append]

/-- The bytes of a character are no percent signs, unless it is one. -/
theorem ne_of_mem_utf8EncodeChar {c : Char} (hc : c ≠ '%') :
    ∀ b ∈ String.utf8EncodeChar c, b ≠ 0x25 := by
  have hone : c.toNat ≠ 0x25 := fun h => hc (by rw [← Char.ofNat_toNat c, h])
  have hne : ∀ k, k < 256 ∧ k ≠ 0x25 → UInt8.ofNat k ≠ 0x25 := by
    rintro k ⟨hk, hk'⟩ heq
    have hnat := congrArg UInt8.toNat heq
    rw [UInt8.toNat_ofNat_of_lt' hk] at hnat
    exact hk' hnat
  unfold String.utf8EncodeChar
  simp only [show c.val.toNat = c.toNat from rfl]
  -- a byte of several is at least 128
  split
  · exact List.forall_mem_singleton.mpr (hne _ (by omega))
  split
  · exact List.forall_mem_cons.mpr ⟨hne _ (by omega),
      List.forall_mem_singleton.mpr (hne _ (by omega))⟩
  split
  · exact List.forall_mem_cons.mpr ⟨hne _ (by omega), List.forall_mem_cons.mpr
      ⟨hne _ (by omega), List.forall_mem_singleton.mpr (hne _ (by omega))⟩⟩
  · exact List.forall_mem_cons.mpr ⟨hne _ (by omega), List.forall_mem_cons.mpr
      ⟨hne _ (by omega), List.forall_mem_cons.mpr
        ⟨hne _ (by omega), List.forall_mem_singleton.mpr (hne _ (by omega))⟩⟩⟩

/-- **Resolving the escapes** of a text gives its bytes. -/
theorem unescape_of_escaped {text written : List Char} (h : Escaped text written) :
    unescape (utf8 written) = utf8 text := by
  induction h with
  | nil => rfl
  | kept hc rest ih =>
    rw [utf8, List.flatMap_cons, ← utf8, unescape_append_of_ne (ne_of_mem_utf8EncodeChar hc), ih]
    rfl
  | escaped hdigits rest ih =>
    rw [utf8, List.flatMap_append, ← utf8, ← utf8, unescape_of_escapes hdigits, ih]
    rfl

/-- **A text is read from what it is written as**, whatever is escaped. -/
theorem percentDecode_of_escaped {text written : List Char} (h : Escaped text written) :
    percentDecode written = text := by
  rw [percentDecode, unescape_of_escaped h, readUtf8_utf8]

end Karnaugh.Text
