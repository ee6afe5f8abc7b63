/-!
# Bytes as text

A text is written in bytes by UTF-8. Not every row of bytes is a text, and
one that is to be shown all the same is read leniently: a sequence that
breaks off is replaced by one replacement character, and so is a byte that
can start no sequence.

The reader goes from byte to byte. Between two characters it waits for a
first byte; inside a sequence it knows how many bytes are still owed and
between which bounds the next one must lie. A byte out of bounds ends the
sequence and is looked at again as a first byte.
-/

namespace Karnaugh.Text

/-- The bytes of a text. -/
def utf8 (text : List Char) : List UInt8 :=
  text.flatMap String.utf8EncodeChar

/-- The character that stands for what cannot be read. -/
def replacement : Char := '\uFFFD'

/-- **Where the reader stands.** -/
inductive Utf8State where
  /-- Between two characters. -/
  | start
  /-- Inside a sequence: the bits read so far, the number of bytes owed
  after the next, and the bounds of the next. -/
  | inside (bits owed low high : Nat)
  deriving DecidableEq, Repr

/-- A first byte: what it shows at once, and where the reader stands after
it. -/
def firstByte (b : Nat) : List Char × Utf8State :=
  if b < 0x80 then ([Char.ofNat b], .start)
  else if 0xC2 ≤ b ∧ b ≤ 0xDF then ([], .inside (b - 0xC0) 0 0x80 0xBF)
  else if b = 0xE0 then ([], .inside 0 1 0xA0 0xBF)
  else if b = 0xED then ([], .inside 0xD 1 0x80 0x9F)
  else if 0xE1 ≤ b ∧ b ≤ 0xEF then ([], .inside (b - 0xE0) 1 0x80 0xBF)
  else if b = 0xF0 then ([], .inside 0 2 0x90 0xBF)
  else if 0xF1 ≤ b ∧ b ≤ 0xF3 then ([], .inside (b - 0xF0) 2 0x80 0xBF)
  else if b = 0xF4 then ([], .inside 4 2 0x80 0x8F)
  else ([replacement], .start)

/-- Any byte: what it shows at once, and where the reader stands after
it. -/
def nextByte : Utf8State → Nat → List Char × Utf8State
  | .start, b => firstByte b
  | .inside bits owed low high, b =>
    if low ≤ b ∧ b ≤ high then
      let bits := 64 * bits + (b - 0x80)
      match owed with
      | 0 => ([Char.ofNat bits], .start)
      | owed + 1 => ([], .inside bits owed 0x80 0xBF)
    else
      let (shown, state) := firstByte b
      (replacement :: shown, state)

/-- Reads bytes leniently from a state on. -/
def readUtf8From : Utf8State → List UInt8 → List Char
  | .start, [] => []
  | .inside .., [] => [replacement]
  | state, b :: rest =>
    let (shown, state) := nextByte state b.toNat
    shown ++ readUtf8From state rest

/-- **The text of a row of bytes**, with a replacement character wherever
it is none. -/
def readUtf8 (bytes : List UInt8) : List Char :=
  readUtf8From .start bytes

example : readUtf8 (utf8 ['A', 'é', '∧', '😀']) = ['A', 'é', '∧', '😀'] := by decide +kernel

example : readUtf8 [0xE2, 0x82, 0x41, 0xFF] = [replacement, 'A', replacement] := by
  decide +kernel

end Karnaugh.Text
