import Karnaugh.Pattern.Reading
import Karnaugh.Text.Blank
import Karnaugh.Text.Split

/-!
# Sum-of-products expressions

An expression is a sum of terms, `A'BC + AB'`. A term is a product: it
names variables by their letters, in either case, and a variable is
complemented by each mark after it – an apostrophe, a typographic one, an
exclamation mark or a combining overline. The constants `0` and `1` may
stand among the variables. Blanks do not count, and neither does any
character that means nothing, so that the usual signs for *and* can be
written or left out. A term must name something.

`Expression.parse` finds the minterms of an expression, and
`Expression.parsePatterns` one pattern per term that can be true.
`Expression.render` writes patterns as an expression again.

## How a term is read

The factors of a term are found from its end: going that way, the parity
of the marks just passed is what the next letter needs to know, and any
other character resets it.
-/

namespace Karnaugh.Expression

/-- Whether a character complements the variable before it. -/
def isMark (c : Char) : Bool :=
  c == '\'' || c == '\u2019' || c == '!' || c == '\u0305' || c == '\u0304'

/-- The position of the variable that a letter of either case names, among
the first `numVars`. -/
def letterPosition? (numVars : Nat) (c : Char) : Option Nat :=
  (variableNames.take numVars).findIdx? (· == c.toUpper)

/-- **A factor of a term**: a literal or a constant. -/
inductive Factor where
  /-- A variable or its complement. -/
  | literal (l : Literal)
  /-- The constant zero or one. -/
  | constant (b : Bool)
  deriving DecidableEq, Repr

/-- The factors of a text, together with the parity of the marks that the
text starts with. -/
def scan (numVars : Nat) : List Char → Bool × List Factor
  | [] => (false, [])
  | c :: rest =>
    let (odd, factors) := scan numVars rest
    if isMark c then (!odd, factors)
    else
      match letterPosition? numVars c with
      | some position => (false, .literal ⟨position, odd⟩ :: factors)
      | none =>
        if c = '1' then (false, .constant true :: factors)
        else if c = '0' then (false, .constant false :: factors)
        else (false, factors)

/-- **The factors of a term**, in order. -/
def factors (numVars : Nat) (term : List Char) : List Factor :=
  (scan numVars (Text.compact term)).2

/-- What the factors of a term require of the variable at a position. -/
def requirement (factors : List Factor) (position : Nat) : Option Bool :=
  if factors.contains (.literal ⟨position, false⟩) then some true
  else if factors.contains (.literal ⟨position, true⟩) then some false
  else none

/-- Whether factors can never be true together: zero is one of them, or a
variable and its complement are. -/
def contradictory (numVars : Nat) (factors : List Factor) : Bool :=
  factors.contains (.constant false) || (List.range numVars).any fun position =>
    factors.contains (.literal ⟨position, false⟩)
      && factors.contains (.literal ⟨position, true⟩)

/-- **The pattern of a term**, or nothing for a term that is never true. A
term without any factor is a fault. -/
def readTerm (numVars : Nat) (term : List Char) :
    Except ExpressionFault (Option Pattern) :=
  match factors numVars term with
  | [] => .error (.emptyTerm (String.ofList term) numVars)
  | fs =>
    if contradictory numVars fs then .ok none
    else .ok (Pattern.ofBits? ((List.range numVars).map (requirement fs)))

/-- **The terms of an expression**: the pieces between plus signs that are
not blank, without the blanks around them. -/
def terms (expression : List Char) : List (List Char) :=
  ((Text.split '+' expression).map Text.trim).filter fun term => !term.isEmpty

/-- The patterns of terms, without those that are never true; the first
term at fault ends the reading. -/
def readTerms (numVars : Nat) : List (List Char) → Except ExpressionFault (List Pattern)
  | [] => .ok []
  | term :: rest => do
    let pattern? ← readTerm numVars term
    let patterns ← readTerms numVars rest
    return pattern?.toList ++ patterns

/-- **Reads an expression** into a pattern for each term that can be
true. -/
def parsePatterns (expression : String) (numVars : Nat) : Except MapError (List Pattern) := do
  checkVariableCount numVars
  match terms expression.toList with
  | [] => throw (.malformedExpression expression .noTerms)
  | ts => (readTerms numVars ts).mapError (.malformedExpression expression)

/-- The minterms that one of the patterns covers, ascending. -/
def coveredByAny (numVars : Nat) (patterns : List Pattern) : List Nat :=
  (List.range (inputCount numVars)).filter fun minterm => patterns.any (·.covers minterm)

/-- **The minterms of an expression**, ascending. -/
def parse (expression : String) (numVars : Nat) : Except MapError (List Nat) := do
  return coveredByAny numVars (← parsePatterns expression numVars)

/-- **Writes patterns as a sum of products**; the sum of none is `0`. -/
def render (patterns : List Pattern) : String :=
  match patterns with
  | [] => "0"
  | ps => Text.join " + " (ps.map Pattern.term)

end Karnaugh.Expression
