import Karnaugh.Error

/-!
# Making patterns

A pattern comes from its text, from a mask and a value, or from a single
minterm. Each way checks what it is given; what it cannot use is a
`MapError`.
-/

namespace Karnaugh

/-- Refuses a number of variables that no expression can have. -/
def checkVariableCount (numVars : Nat) : Except MapError Unit :=
  if minVariables ≤ numVars ∧ numVars ≤ maxVariables then .ok ()
  else .error (.unsupportedVariableCount numVars minVariables maxVariables)

namespace Pattern

/-- The requirement a character stands for. -/
def ofChar? : Char → Option (Option Bool)
  | '1' => some (some true)
  | '0' => some (some false)
  | '-' => some none
  | _ => none

/-- The requirements a text stands for, or its first character that stands
for none. -/
def readBits : List Char → Except Char (List (Option Bool))
  | [] => .ok []
  | c :: rest =>
    match ofChar? c with
    | none => .error c
    | some b => (readBits rest).map (b :: ·)

/-- Requirements as a pattern, if there are two to six of them. -/
def ofBits? (bits : List (Option Bool)) : Option Pattern :=
  if h : minVariables ≤ bits.length ∧ bits.length ≤ maxVariables then some ⟨bits, h.1, h.2⟩
  else none

theorem ofBits?_eq_some_iff {bits : List (Option Bool)} {p : Pattern} :
    ofBits? bits = some p ↔ bits = p.bits := by
  unfold ofBits?
  constructor
  · intro h
    split at h
    · cases h; rfl
    · cases h
  · rintro rfl
    rw [dif_pos ⟨p.two_le, p.le_six⟩]

/-- **The pattern that requires `value` at the positions of `mask`.** Bits
of the value elsewhere do not matter. -/
def ofMask (numVars mask value : Nat) : Except MapError Pattern :=
  if h : minVariables ≤ numVars ∧ numVars ≤ maxVariables then
    if mask < inputCount numVars then
      .ok ⟨bitsOfMask numVars mask value, by simpa using h.1, by simpa using h.2⟩
    else
      .error (.invalidBitPattern ("mask 0b" ++ String.ofList (Text.binary mask))
        (.maskTooWide numVars))
  else
    .error (.unsupportedVariableCount numVars minVariables maxVariables)

/-- **Reads a pattern**: two to six of the characters `0`, `1` and `-`. The
length of the text, and the numbers its characters make up, are kept in 32
bits. -/
def ofText (text : String) : Except MapError Pattern :=
  let chars := text.toList
  let length := chars.length % Text.wordBound
  if minVariables ≤ length ∧ length ≤ maxVariables then
    match readBits chars with
    | .error c => .error (.invalidBitPattern text (.unexpected c))
    | .ok bits =>
      ofMask length (number Option.isSome bits % Text.wordBound)
        (number (· == some true) bits % Text.wordBound)
  else
    .error (.invalidBitPattern text (.length length))

/-- Reads a pattern that has to be for a given number of variables. -/
def ofTextFor (numVars : Nat) (text : String) : Except MapError Pattern := do
  checkVariableCount numVars
  let p ← ofText text
  if p.numVars = numVars then
    return p
  else
    throw (.invalidBitPattern text (.otherLength numVars p.numVars))

/-- **The pattern that covers one minterm only.** -/
def ofMinterm (numVars minterm : Nat) : Except MapError Pattern := do
  checkVariableCount numVars
  if inputCount numVars ≤ minterm then
    throw (.mintermOutOfRange minterm numVars)
  ofMask numVars (inputCount numVars - 1) minterm

/-- The pattern that covers every minterm. -/
def everything (numVars : Nat) : Except MapError Pattern :=
  ofMask numVars 0 0

end Pattern

end Karnaugh
