import Mathlib.Data.Option.Basic
import Karnaugh.Proofs.Escapes

/-!
# Which escapes are resolved

A percent sign with two hexadecimal digits after it is an escape and stands for a byte;
every other byte stands for itself. Scanning a row of bytes from left to right by this
rule gives one reading of it (`Resolves`), and `percentDecode` is expected to show the
text of that reading.

It does not always: a plus sign before a single digit is taken for an escape as well.
Such a sequence becomes one byte instead of three, all of them characters of their own,
so that what is shown gets shorter by two characters each time
(`Resolves.length_readUtf8From`). Hence `percentDecode` keeps to the rule exactly for
texts without such a sequence (`percentDecode_eq_iff`), and departs from it where there
is one (`exists_percentDecode_ne`).

An encoder never writes one, since it escapes each percent sign. So what was encoded byte
by byte, some of them escaped and the others as they are, is decoded to what it was
(`Encodes.unescape_eq`).
-/

namespace Karnaugh.Text

/-! ## The rule -/

/-- **A byte is a hexadecimal digit** with a value, in either case. -/
def IsHex (b : UInt8) (n : Nat) : Prop :=
  n < 16 ∧ ∃ upper, utf8 [hexDigit upper n] = [b]

/-- **Bytes start with an escape**: a percent sign and two digits. -/
def StartsEscape (bytes : List UInt8) : Prop :=
  ∃ first second high low rest, IsHex first high ∧ IsHex second low
    ∧ bytes = 0x25 :: first :: second :: rest

/-- **The reading of a row of bytes**: an escape stands for its byte, and every other byte
for itself. -/
inductive Resolves : List UInt8 → List UInt8 → Prop where
  /-- Nothing is left to be read. -/
  | nil : Resolves [] []
  /-- An escape stands for its byte. -/
  | escape {first second : UInt8} {high low : Nat} (hfirst : IsHex first high)
      (hsecond : IsHex second low) {bytes out : List UInt8} (rest : Resolves bytes out) :
      Resolves (0x25 :: first :: second :: bytes) (UInt8.ofNat (16 * high + low) :: out)
  /-- A byte that starts no escape stands for itself. -/
  | kept {b : UInt8} {bytes out : List UInt8} (h : ¬StartsEscape (b :: bytes))
      (rest : Resolves bytes out) : Resolves (b :: bytes) (b :: out)

/-- **Bytes are encoded**: each is written as an escape or, if it is no percent sign, as
it is. -/
inductive Encodes : List UInt8 → List UInt8 → Prop where
  /-- Nothing is written as nothing. -/
  | nil : Encodes [] []
  /-- A byte is written as an escape. -/
  | escape {first second : UInt8} {high low : Nat} (hfirst : IsHex first high)
      (hsecond : IsHex second low) {bytes written : List UInt8} (rest : Encodes bytes written) :
      Encodes (UInt8.ofNat (16 * high + low) :: bytes) (0x25 :: first :: second :: written)
  /-- A byte is written as it is. -/
  | literal {b : UInt8} (h : b ≠ 0x25) {bytes written : List UInt8}
      (rest : Encodes bytes written) : Encodes (b :: bytes) (b :: written)

/-- **A signed escape** occurs: a percent sign, a plus sign and a digit. -/
def HasSigned (bytes : List UInt8) : Prop :=
  ∃ digit n, IsHex digit n ∧ [0x25, 0x2B, digit] <:+: bytes

/-! ## Digits -/

theorem toNat_hexDigit (upper : Bool) {n : Nat} (h : n < 16) :
    (hexDigit upper n).toNat
      = if n < 10 then 0x30 + n else if upper then 0x41 + (n - 10) else 0x61 + (n - 10) := by
  have hall : ∀ upper : Bool, ∀ n < 16, (hexDigit upper n).toNat
      = if n < 10 then 0x30 + n else if upper then 0x41 + (n - 10) else 0x61 + (n - 10) := by
    decide
  exact hall upper n h

theorem isHex_iff {b : UInt8} {n : Nat} :
    IsHex b n ↔ n < 16 ∧ ∃ upper, (hexDigit upper n).toNat = b.toNat := by
  refine and_congr_right fun hn => exists_congr fun upper => ?_
  have hlt : (hexDigit upper n).toNat < 256 := by
    rw [toNat_hexDigit upper hn]
    split
    · omega
    · split <;> omega
  rw [(hexDigit?_hexDigit upper hn).1, List.singleton_inj, ← UInt8.toNat_inj,
    UInt8.toNat_ofNat_of_lt' hlt]

theorem hexDigit?_eq_some_iff {b : UInt8} {n : Nat} : hexDigit? b = some n ↔ IsHex b n := by
  constructor
  · intro h
    rw [isHex_iff]
    unfold hexDigit? at h
    dsimp only at h
    -- the three ranges of digits
    split at h
    · obtain rfl := Option.some.inj h
      exact ⟨by omega, true, by rw [toNat_hexDigit _ (by omega), if_pos (by omega)]; omega⟩
    split at h
    · obtain rfl := Option.some.inj h
      exact ⟨by omega, true, by
        rw [toNat_hexDigit _ (by omega), if_neg (by omega), if_pos rfl]; omega⟩
    split at h
    · obtain rfl := Option.some.inj h
      exact ⟨by omega, false, by
        rw [toNat_hexDigit _ (by omega), if_neg (by omega), if_neg Bool.false_ne_true]; omega⟩
    · cases h
  · rintro ⟨hn, upper, hb⟩
    obtain ⟨hwritten, hread, -⟩ := hexDigit?_hexDigit upper hn
    rw [hwritten] at hb
    rwa [← List.singleton_inj.mp hb]

/-- A digit is neither a percent sign nor a plus sign. -/
theorem IsHex.ne {b : UInt8} {n : Nat} (h : IsHex b n) : b ≠ 0x25 ∧ b ≠ 0x2B := by
  rw [← hexDigit?_eq_some_iff] at h
  constructor <;> (rintro rfl; cases h)

theorem IsHex.unique {b : UInt8} {m n : Nat} (h : IsHex b m) (h' : IsHex b n) : m = n :=
  Option.some.inj ((hexDigit?_eq_some_iff.mpr h).symm.trans (hexDigit?_eq_some_iff.mpr h'))

/-! ## The rule gives one reading -/

theorem startsEscape_cons_iff {b : UInt8} {bytes : List UInt8} :
    StartsEscape (b :: bytes)
      ↔ b = 0x25 ∧ ∃ first second high low rest, IsHex first high ∧ IsHex second low
        ∧ bytes = first :: second :: rest := by
  constructor
  · rintro ⟨first, second, high, low, rest, hfirst, hsecond, h⟩
    obtain ⟨hb, hbytes⟩ := List.cons.inj h
    exact ⟨hb, first, second, high, low, rest, hfirst, hsecond, hbytes⟩
  · rintro ⟨rfl, first, second, high, low, rest, hfirst, hsecond, rfl⟩
    exact ⟨first, second, high, low, rest, hfirst, hsecond, rfl⟩

theorem exists_resolves (bytes : List UInt8) : ∃ out, Resolves bytes out := by
  induction hlength : bytes.length using Nat.strongRecOn generalizing bytes with
  | ind k ih =>
    rcases bytes with - | ⟨b, rest⟩
    · exact ⟨[], .nil⟩
    by_cases h : StartsEscape (b :: rest)
    · -- what follows the escape is read next
      obtain ⟨rfl, first, second, high, low, rest, hfirst, hsecond, rfl⟩ :=
        startsEscape_cons_iff.mp h
      have hlt : rest.length < k := by
        simp only [← hlength, List.length_cons]
        omega
      obtain ⟨out, hout⟩ := ih rest.length hlt rest rfl
      exact ⟨_, .escape hfirst hsecond hout⟩
    · obtain ⟨out, hout⟩ := ih rest.length (by simp [← hlength]) rest rfl
      exact ⟨_, .kept h hout⟩

theorem Resolves.unique {bytes out out' : List UInt8} (h : Resolves bytes out)
    (h' : Resolves bytes out') : out = out' := by
  induction h generalizing out' with
  | nil =>
    cases h'
    rfl
  | escape hfirst hsecond rest ih =>
    cases h' with
    | escape hfirst' hsecond' rest' =>
      rw [hfirst.unique hfirst', hsecond.unique hsecond', ih rest']
    | kept h _ => exact absurd ⟨_, _, _, _, _, hfirst, hsecond, rfl⟩ h
  | kept h rest ih =>
    cases h' with
    | escape hfirst hsecond _ => exact absurd ⟨_, _, _, _, _, hfirst, hsecond, rfl⟩ h
    | kept _ rest' => rw [ih rest']

/-! ## What is resolved -/

/-- **What is taken for an escape**: escapes, and signed ones. -/
theorem escaped?_eq_some_iff {sign first second byte : UInt8} :
    escaped? sign first second = some byte
      ↔ sign = 0x25 ∧ ∃ low, IsHex second low
        ∧ (first = 0x2B ∧ UInt8.ofNat low = byte
          ∨ ∃ high, IsHex first high ∧ UInt8.ofNat (16 * high + low) = byte) := by
  unfold escaped?
  simp only [← hexDigit?_eq_some_iff, bind, Option.bind_eq_some_iff, Option.guard_eq_some',
    exists_and_left, exists_const]
  refine and_congr_right fun _ => exists_congr fun low => and_congr_right fun _ => ?_
  split
  · next hplus =>
    -- a plus sign is no digit
    have hno : ¬∃ high, hexDigit? first = some high ∧ UInt8.ofNat (16 * high + low) = byte :=
      fun ⟨high, h, _⟩ => (hexDigit?_eq_some_iff.mp h).ne.2 hplus
    rw [and_iff_right hplus, or_iff_left hno]
    exact Option.some_inj
  · next hplus =>
    rw [Option.bind_eq_some_iff, or_iff_right fun h => hplus h.1]
    exact exists_congr fun high => and_congr_right fun _ => Option.some_inj

/-- **One byte**: one that is taken for no escape stands for itself. -/
theorem unescape_cons_of_none {b : UInt8} {rest : List UInt8}
    (h : ∀ first second more, rest = first :: second :: more → escaped? b first second = none) :
    unescape (b :: rest) = b :: unescape rest := by
  rcases rest with - | ⟨first, - | ⟨second, more⟩⟩
  · rfl
  · rfl
  · rw [unescape, h first second more rfl]

theorem unescape_escape_of_isHex {first second : UInt8} {high low : Nat}
    (hfirst : IsHex first high) (hsecond : IsHex second low) (rest : List UInt8) :
    unescape (0x25 :: first :: second :: rest)
      = UInt8.ofNat (16 * high + low) :: unescape rest := by
  have h := escaped?_eq_some_iff.mpr ⟨rfl, low, hsecond, .inr ⟨high, hfirst, rfl⟩⟩
  rw [unescape, h]

theorem unescape_signed {second : UInt8} {low : Nat} (hsecond : IsHex second low)
    (rest : List UInt8) :
    unescape (0x25 :: 0x2B :: second :: rest) = UInt8.ofNat low :: unescape rest := by
  have h := escaped?_eq_some_iff.mpr ⟨rfl, low, hsecond, .inl ⟨rfl, rfl⟩⟩
  rw [unescape, h]

/-- **A byte that starts no escape** stands for itself, unless it starts a signed one. -/
theorem unescape_kept {b : UInt8} {rest : List UInt8} (h : ¬StartsEscape (b :: rest))
    (hsigned : ∀ digit n more, IsHex digit n → b :: rest ≠ 0x25 :: 0x2B :: digit :: more) :
    unescape (b :: rest) = b :: unescape rest := by
  refine unescape_cons_of_none fun first second more hrest => ?_
  cases hnone : escaped? b first second with
  | none => rfl
  | some byte =>
    obtain ⟨rfl, low, hlow, ⟨rfl, -⟩ | ⟨high, hhigh, -⟩⟩ := escaped?_eq_some_iff.mp hnone
    · exact absurd (congrArg _ hrest) (hsigned second low more hlow)
    · exact absurd ⟨first, second, high, low, more, hhigh, hlow, congrArg _ hrest⟩ h

/-- **What was encoded** is decoded, byte by byte. -/
theorem Encodes.unescape_eq {bytes written : List UInt8} (h : Encodes bytes written) :
    unescape written = bytes := by
  induction h with
  | nil => rfl
  | escape hfirst hsecond rest ih => rw [unescape_escape_of_isHex hfirst hsecond, ih]
  | literal hb rest ih => rw [unescape_cons_of_ne hb, ih]

/-! ## Signed escapes -/

theorem hasSigned_cons_iff {b : UInt8} {bytes : List UInt8} :
    HasSigned (b :: bytes)
      ↔ (b = 0x25 ∧ ∃ digit n more, IsHex digit n ∧ bytes = 0x2B :: digit :: more)
        ∨ HasSigned bytes := by
  constructor
  · rintro ⟨digit, n, hdigit, h⟩
    rcases List.infix_cons_iff.mp h with ⟨more, hmore⟩ | h
    · obtain ⟨hb, hbytes⟩ := List.cons.inj hmore
      exact .inl ⟨hb.symm, digit, n, more, hdigit, hbytes.symm⟩
    · exact .inr ⟨digit, n, hdigit, h⟩
  · rintro (⟨rfl, digit, n, more, hdigit, rfl⟩ | ⟨digit, n, hdigit, h⟩)
    · exact ⟨digit, n, hdigit, List.infix_cons_iff.mpr (.inl ⟨more, rfl⟩)⟩
    · exact ⟨digit, n, hdigit, List.infix_cons_iff.mpr (.inr h)⟩

theorem hasSigned_cons_of_ne {b : UInt8} (h : b ≠ 0x25) {bytes : List UInt8} :
    HasSigned (b :: bytes) ↔ HasSigned bytes := by
  rw [hasSigned_cons_iff, or_iff_right fun hsigned => h hsigned.1]

/-- A signed escape does not overlap an escape. -/
theorem hasSigned_escape_iff {first second : UInt8} {high low : Nat} (hfirst : IsHex first high)
    (hsecond : IsHex second low) {rest : List UInt8} :
    HasSigned (0x25 :: first :: second :: rest) ↔ HasSigned rest := by
  rw [hasSigned_cons_iff, or_iff_right, hasSigned_cons_of_ne hfirst.ne.1,
    hasSigned_cons_of_ne hsecond.ne.1]
  rintro ⟨-, digit, n, more, -, h⟩
  exact hfirst.ne.2 (List.cons.inj h).1

/-- **Without signed escapes** the rule is kept. -/
theorem Resolves.unescape_eq {bytes out : List UInt8} (h : Resolves bytes out)
    (hno : ¬HasSigned bytes) : unescape bytes = out := by
  induction h with
  | nil => rfl
  | escape hfirst hsecond rest ih =>
    rw [hasSigned_escape_iff hfirst hsecond] at hno
    rw [unescape_escape_of_isHex hfirst hsecond, ih hno]
  | @kept b bytes out h rest ih =>
    rw [hasSigned_cons_iff, not_or] at hno
    rw [unescape_kept h, ih hno.2]
    intro digit n more hdigit heq
    obtain ⟨hb, hbytes⟩ := List.cons.inj heq
    exact hno.1 ⟨hb, digit, n, more, hdigit, hbytes⟩

/-! ## What is shown -/

/-- **A state that is reached**: inside a sequence, no byte of a character of its own is
within the bounds. -/
def Utf8State.Reached : Utf8State → Prop
  | .start => True
  | .inside _ _ low _ => 0x80 ≤ low

theorem reached_start : Utf8State.start.Reached := trivial

theorem readUtf8From_cons (state : Utf8State) (b : UInt8) (rest : List UInt8) :
    readUtf8From state (b :: rest)
      = (nextByte state b.toNat).1 ++ readUtf8From (nextByte state b.toNat).2 rest := by
  cases state <;> rfl

theorem reached_firstByte (b : Nat) : (firstByte b).2.Reached := by
  unfold firstByte
  repeat' split
  all_goals simp [Utf8State.Reached]

theorem reached_nextByte {state : Utf8State} (h : state.Reached) (b : Nat) :
    (nextByte state b).2.Reached := by
  cases state with
  | start => exact reached_firstByte b
  | inside bits owed low high =>
    unfold nextByte
    dsimp only
    split
    · cases owed with
      | zero => trivial
      | succ owed => exact Nat.le_refl 0x80
    · exact reached_firstByte b

/-- **A byte of a character of its own** shows that character, after what a sequence it
breaks off shows. -/
theorem readUtf8From_ascii {state : Utf8State} (hstate : state.Reached) {b : UInt8}
    (hb : b.toNat < 0x80) (rest : List UInt8) :
    readUtf8From state (b :: rest)
      = readUtf8From state [] ++ Char.ofNat b.toNat :: readUtf8From .start rest := by
  have hfirst : firstByte b.toNat = ([Char.ofNat b.toNat], .start) := if_pos hb
  cases state with
  | start =>
    rw [readUtf8From_cons, nextByte, hfirst]
    rfl
  | inside bits owed low high =>
    have hlow : 0x80 ≤ low := hstate
    have hout : ¬(low ≤ b.toNat ∧ b.toNat ≤ high) := fun h => by omega
    rw [readUtf8From_cons, nextByte, if_neg hout, hfirst]
    rfl

theorem IsHex.toNat_lt {b : UInt8} {n : Nat} (h : IsHex b n) : b.toNat < 0x80 := by
  obtain ⟨hn, upper, hb⟩ := isHex_iff.mp h
  rw [← hb, toNat_hexDigit upper hn]
  split
  · omega
  · split <;> omega

/-- **A signed escape shows one character** where the rule shows the percent sign before
whatever follows it. -/
theorem length_readUtf8From_signed {state : Utf8State} (hstate : state.Reached) {digit : UInt8}
    {n : Nat} (hdigit : IsHex digit n) {more out : List UInt8}
    (hle : (readUtf8From .start (unescape (0x2B :: digit :: more))).length
      ≤ (readUtf8From .start out).length) :
    (readUtf8From state (unescape (0x25 :: 0x2B :: digit :: more))).length
      < (readUtf8From state (0x25 :: out)).length := by
  have hn : (UInt8.ofNat n).toNat < 0x80 := by
    have hlt : n < 16 := hdigit.1
    rw [UInt8.toNat_ofNat_of_lt' (show n < 256 by omega)]
    omega
  -- by the rule, the plus sign and the digit are shown as well
  rw [unescape_cons_of_ne (by decide), unescape_cons_of_ne hdigit.ne.1,
    readUtf8From_ascii reached_start (by decide),
    readUtf8From_ascii reached_start hdigit.toNat_lt] at hle
  rw [unescape_signed hdigit, readUtf8From_ascii hstate hn,
    readUtf8From_ascii hstate (by decide)]
  simp only [List.length_append, List.length_cons] at hle ⊢
  omega

/-- **What is shown is never longer** than by the rule, and is shorter if there is a
signed escape. -/
theorem Resolves.length_readUtf8From {bytes out : List UInt8} (h : Resolves bytes out)
    {state : Utf8State} (hstate : state.Reached) :
    (readUtf8From state (unescape bytes)).length ≤ (readUtf8From state out).length
      ∧ (HasSigned bytes →
        (readUtf8From state (unescape bytes)).length < (readUtf8From state out).length) := by
  induction h generalizing state with
  | nil =>
    refine ⟨Nat.le_refl _, ?_⟩
    rintro ⟨digit, n, -, h⟩
    cases List.infix_nil.mp h
  | escape hfirst hsecond rest ih =>
    obtain ⟨hle, hlt⟩ := ih (reached_nextByte hstate _)
    rw [hasSigned_escape_iff hfirst hsecond, unescape_escape_of_isHex hfirst hsecond,
      readUtf8From_cons, readUtf8From_cons, List.length_append, List.length_append]
    exact ⟨Nat.add_le_add_left hle _, fun hs => Nat.add_lt_add_left (hlt hs) _⟩
  | @kept b bytes out h rest ih =>
    by_cases hsigned : b = 0x25 ∧ ∃ digit n more, IsHex digit n ∧ bytes = 0x2B :: digit :: more
    · obtain ⟨rfl, digit, n, more, hdigit, rfl⟩ := hsigned
      have hlt := length_readUtf8From_signed hstate hdigit (ih reached_start).1
      exact ⟨Nat.le_of_lt hlt, fun _ => hlt⟩
    · obtain ⟨hle, hlt⟩ := ih (reached_nextByte hstate b.toNat)
      have hkept : unescape (b :: bytes) = b :: unescape bytes := by
        refine unescape_kept h fun digit n more hdigit heq => hsigned ?_
        obtain ⟨hb, hbytes⟩ := List.cons.inj heq
        exact ⟨hb, digit, n, more, hdigit, hbytes⟩
      rw [hasSigned_cons_iff, or_iff_right hsigned, hkept, readUtf8From_cons, readUtf8From_cons,
        List.length_append, List.length_append]
      exact ⟨Nat.add_le_add_left hle _, fun hs => Nat.add_lt_add_left (hlt hs) _⟩

/-- **The rule is kept** exactly for texts without signed escapes. -/
theorem Resolves.percentDecode_eq_iff {text : List Char} {out : List UInt8}
    (h : Resolves (utf8 text) out) :
    percentDecode text = readUtf8 out ↔ ¬HasSigned (utf8 text) := by
  constructor
  · intro heq hsigned
    have hlt := (h.length_readUtf8From reached_start).2 hsigned
    exact Nat.ne_of_lt hlt (congrArg List.length heq)
  · intro hno
    rw [percentDecode, h.unescape_eq hno]

/-- **Decoding of a text.** The rule gives one reading of its bytes, and the text of that
reading is what is decoded, exactly if no signed escape occurs. Whatever is encoded by
escaping some bytes of a text, all percent signs among them, is decoded to that text. -/
theorem percentDecode_reads (text : List Char) :
    (∃ out, Resolves (utf8 text) out ∧ (∀ other, Resolves (utf8 text) other → other = out)
        ∧ (percentDecode text = readUtf8 out ↔ ¬HasSigned (utf8 text)))
      ∧ ∀ original, Encodes (utf8 original) (utf8 text) → percentDecode text = original := by
  obtain ⟨out, hout⟩ := exists_resolves (utf8 text)
  refine ⟨⟨out, hout, fun other h => h.unique hout, hout.percentDecode_eq_iff⟩,
    fun original h => ?_⟩
  rw [percentDecode, h.unescape_eq, readUtf8_utf8]

/-- Two characters, with all their bytes escaped. -/
def escapedText : List Char := ['%', '2', '5', '%', 'c', '3', '%', 'A', '9']

/-- The theorem on this text. -/
theorem percentDecode_reads_escapedText :
    Encodes (utf8 ['%', 'é']) (utf8 escapedText) ∧ percentDecode escapedText = ['%', 'é']
      ∧ ∃ out, Resolves (utf8 escapedText) out ∧ percentDecode escapedText = readUtf8 out := by
  have hhex : ∀ {b : UInt8} {n : Nat}, hexDigit? b = some n → IsHex b n := hexDigit?_eq_some_iff.mp
  have hplain : utf8 ['%', 'é'] = [0x25, 0xC3, 0xA9] := by decide
  have hwritten : utf8 escapedText
      = [0x25, 0x32, 0x35, 0x25, 0x63, 0x33, 0x25, 0x41, 0x39] := by decide
  have hencodes : Encodes (utf8 ['%', 'é']) (utf8 escapedText) := by
    rw [hplain, hwritten]
    exact .escape (hhex (n := 2) rfl) (hhex (n := 5) rfl) <|
      .escape (hhex (n := 12) rfl) (hhex (n := 3) rfl) <|
      .escape (hhex (n := 10) rfl) (hhex (n := 9) rfl) .nil
  have hno : ¬HasSigned (utf8 escapedText) := by
    rintro ⟨digit, n, -, h⟩
    have hplus : (0x2B : UInt8) ∈ utf8 escapedText := h.subset (by simp)
    rw [hwritten] at hplus
    exact absurd hplus (by decide)
  obtain ⟨⟨out, hout, -, heq⟩, hread⟩ := percentDecode_reads escapedText
  exact ⟨hencodes, hread _ hencodes, out, hout, heq.mpr hno⟩

/-- A number with a signed escape after it. -/
def signedText : List Char := ['1', '%', '+', '9']

/-- **A signed escape is resolved**, though it is no escape: by the rule the text stands
for itself, and what is decoded is a number with a tab after it. -/
theorem exists_percentDecode_ne :
    Resolves (utf8 signedText) (utf8 signedText) ∧ readUtf8 (utf8 signedText) = signedText
      ∧ percentDecode signedText = ['1', '\t'] := by
  refine ⟨?_, readUtf8_utf8 signedText, by decide⟩
  have hplain : ∀ {b : UInt8} {rest : List UInt8}, b ≠ 0x25 → ¬StartsEscape (b :: rest) :=
    fun hb h => hb (startsEscape_cons_iff.mp h).1
  have hsigned : ¬StartsEscape [0x25, 0x2B, 0x39] := by
    rintro ⟨first, second, high, low, rest, hfirst, -, heq⟩
    exact hfirst.ne.2 (List.cons.inj (List.cons.inj heq).2).1.symm
  rw [show utf8 signedText = [0x31, 0x25, 0x2B, 0x39] by decide]
  exact .kept (hplain (by decide)) <| .kept hsigned <| .kept (hplain (by decide)) <|
    .kept (hplain (by decide)) .nil

end Karnaugh.Text
