import Karnaugh.Text.Numeral

/-!
# Bit patterns

A product term of a function of `n` variables says of each variable what
it requires: that it is one, that it is zero, or nothing. Written one
character per variable, `1-0` requires the first to be one and the third
to be zero. A **pattern** is this row of requirements, for two to six
variables.

An input of the function is a **minterm**: the number whose binary digits
are the values of the variables, the first variable being the most
significant. A pattern covers the minterms that meet every requirement.

A pattern can also be described by two numbers, the `mask` of the
positions it fixes and the `value` it requires there.
-/

namespace Karnaugh

/-- The least number of variables of an expression. -/
def minVariables : Nat := 2

/-- The greatest number of variables of an expression. -/
def maxVariables : Nat := 6

/-- **The number of inputs** of a function: the minterms are the numbers
below it. -/
def inputCount (numVars : Nat) : Nat := Nat.pow 2 numVars

/-- **The names of the variables**, in the order of their positions. -/
def variableNames : List Char := ['A', 'B', 'C', 'D', 'E', 'F']

/-- The name of the variable at a position. -/
def variableName (position : Nat) : Char :=
  variableNames.getD position '?'

/-- **A literal**: a variable, or its complement. -/
structure Literal where
  /-- The position of the variable, counted from zero. -/
  position : Nat
  /-- Whether it is complemented. -/
  negated : Bool
  deriving DecidableEq, Repr

namespace Literal

/-- The name of the variable, with a mark after it when complemented. -/
def toChars (l : Literal) : List Char :=
  variableName l.position :: if l.negated then ['\''] else []

/-- The literal as text. -/
def toText (l : Literal) : String :=
  String.ofList l.toChars

end Literal

/-- **A pattern**: what a product term requires of each variable. -/
structure Pattern where
  /-- Per variable, the value required of it, if any. -/
  bits : List (Option Bool)
  /-- There are at least two variables. -/
  two_le : minVariables ≤ bits.length
  /-- There are at most six variables. -/
  le_six : bits.length ≤ maxVariables
  deriving DecidableEq, Repr

namespace Pattern

/-- Whether a minterm meets a row of requirements; the first of them is
about the most significant of as many binary digits. -/
def agrees : List (Option Bool) → Nat → Bool
  | [], _ => true
  | required :: rest, minterm =>
    required.all (· == minterm.testBit rest.length) && agrees rest minterm

/-- A row of requirements as a number, with a one for each that satisfies
`f`. -/
def number (f : Option Bool → Bool) : List (Option Bool) → Nat
  | [] => 0
  | required :: rest => (if f required then Nat.pow 2 rest.length else 0) + number f rest

variable (p : Pattern)

/-- The number of variables. -/
def numVars : Nat := p.bits.length

/-- What is required of the variable at a position: nothing past the last. -/
def bit (position : Nat) : Option Bool :=
  (p.bits[position]?).join

/-- The fixed positions as a number: a one for each of them. -/
def mask : Nat := number Option.isSome p.bits

/-- The required values as a number, with zeros where nothing is
required. -/
def value : Nat := number (· == some true) p.bits

/-- **The literals of the term**, in the order of the variables. -/
def literals : List Literal :=
  p.bits.zipIdx.filterMap fun (required, position) =>
    required.map fun b => ⟨position, !b⟩

/-- How many variables are fixed. -/
def literalCount : Nat := p.bits.countP Option.isSome

/-- How many variables are required to be one. -/
def ones : Nat := p.bits.count (some true)

/-- How many minterms are covered. -/
def size : Nat := Nat.pow 2 (p.numVars - p.literalCount)

/-- **Whether a minterm is covered**: it is one of the function's inputs
and meets every requirement. -/
def covers (minterm : Nat) : Bool :=
  minterm < inputCount p.numVars && agrees p.bits minterm

/-- **The covered minterms**, ascending. -/
def covered : List Nat :=
  (List.range (inputCount p.numVars)).filter p.covers

/-- The character of a requirement. -/
def bitChar : Option Bool → Char
  | some true => '1'
  | some false => '0'
  | none => '-'

/-- The pattern, one character per variable. -/
def toChars : List Char := p.bits.map bitChar

/-- The pattern as text. -/
def toText : String := String.ofList p.toChars

/-- **The term of the pattern** as text: its literals one after the other,
or `1` when nothing is required. -/
def termChars : List Char :=
  match p.literals with
  | [] => ['1']
  | literals => literals.flatMap Literal.toChars

/-- The term of the pattern as text. -/
def term : String := String.ofList p.termChars

/-- The requirements that a mask and a value describe, on `n` variables. -/
def bitsOfMask (n mask value : Nat) : List (Option Bool) :=
  (List.range n).map fun position =>
    if mask.testBit (n - 1 - position) then some (value.testBit (n - 1 - position)) else none

/-- **The order of patterns by their numbers**: fewer variables first, then
the smaller mask, then the smaller value. -/
def le (p q : Pattern) : Bool :=
  p.numVars < q.numVars || (p.numVars == q.numVars
    && (p.mask < q.mask || (p.mask == q.mask && p.value ≤ q.value)))

@[simp]
theorem length_bitsOfMask (n mask value : Nat) : (bitsOfMask n mask value).length = n := by
  simp [bitsOfMask]

theorem mem_covered {p : Pattern} {minterm : Nat} :
    minterm ∈ p.covered ↔ p.covers minterm = true := by
  simp only [covered, List.mem_filter, List.mem_range, and_iff_right_iff_imp]
  intro h
  simp only [covers, Bool.and_eq_true, decide_eq_true_eq] at h
  exact h.1

end Pattern

end Karnaugh
