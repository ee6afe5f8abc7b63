import Karnaugh.Yaml.Cursor

/-!
# Block scalars

A block scalar is the lines that are set in below its indicator. In a
literal block they are kept as they are; in a folded one the end of a line
between two lines that start with no blank becomes a space. How far the
block is set in is told by its first line, or by a digit after the
indicator. A sign there says what becomes of the line ends at the end: all
are kept, or none; without a sign, one.
-/

namespace Karnaugh.Yaml

/-- What becomes of the line ends at the end of a block. -/
inductive Chomping where
  /-- None is kept. -/
  | strip
  /-- One is kept. -/
  | clip
  /-- All are kept. -/
  | keep
  deriving DecidableEq, Repr

/-- The sign ahead, if there is one. -/
def takeChomping (c : Cursor) : Chomping × Cursor :=
  if c.sees '+' then (.keep, c.advance 1)
  else if c.sees '-' then (.strip, c.advance 1)
  else (.clip, c)

/-- The digit ahead, if there is one; zero is an error. -/
def takeIncrement (c : Cursor) : Option (Nat × Cursor) :=
  match c.rest with
  | ch :: _ =>
    if ch = '0' then none
    else if ch.isDigit then some (ch.toNat - '0'.toNat, c.advance 1)
    else some (0, c)
  | [] => some (0, c)

/-- The sign and the digit ahead, in either order. -/
def takeHeader (c : Cursor) : Option (Chomping × Nat × Cursor) := do
  if c.sees '+' ∨ c.sees '-' then
    let (chomping, c) := takeChomping c
    let (increment, c) ← takeIncrement c
    return (chomping, increment, c)
  else
    let (increment, c) ← takeIncrement c
    if increment = 0 then return (.clip, 0, c)
    let (chomping, c) := takeChomping c
    return (chomping, increment, c)

/-- The blank lines ahead and the indentation after them. Without a known
indentation every space counts, and the greatest column is remembered. -/
def takeBlankLines (indent : Option Nat) : Nat → Cursor → Nat → List Char →
    Option (Nat × List Char × Cursor)
  | 0, c, greatest, breaks => some (greatest, breaks, c)
  | fuel + 1, c, greatest, breaks =>
    let room := match indent with
      | some n => n - c.column
      | none => c.rest.length
    let spaces := (c.rest.takeWhile (· == ' ')).length
    let c := c.advance (min spaces room)
    let greatest := max greatest c.column
    let inside := match indent with
      | some n => c.column < n
      | none => true
    if inside && c.sees '\t' then none
    else
      match c.takeBreak? with
      | some (ch, next) => takeBlankLines indent fuel next greatest (breaks ++ [ch])
      | none => some (greatest, breaks, c)

/-- What is known of a block scalar while it is read. -/
structure BlockState where
  /-- The place reached. -/
  cursor : Cursor
  /-- The text so far. -/
  text : List Char
  /-- The end of the last line, if there was one. -/
  lineEnd : List Char
  /-- The ends of the blank lines after it. -/
  blankLines : List Char
  /-- Whether the last line started with a blank. -/
  afterBlank : Bool

/-- What is read between the last line and the next, which starts with a
blank or not. -/
def BlockState.between (literal : Bool) (s : BlockState) (blank : Bool) : List Char :=
  if !literal && s.lineEnd == ['\n'] && !s.afterBlank && !blank then
    (if s.blankLines.isEmpty then [' '] else []) ++ s.blankLines
  else s.lineEnd ++ s.blankLines

/-- Reads the lines of a block that is set in by `indent`. -/
def takeBlockLines (literal : Bool) (indent : Nat) : Nat → BlockState → Option BlockState
  | 0, s => some s
  | fuel + 1, s =>
    match s.cursor.rest with
    | [] => some s
    | first :: _ =>
      if s.cursor.column ≠ indent then some s
      else do
        let blank := isBlank first
        let (line, c) := s.cursor.span fun ch => !isBreak ch
        let text := s.text ++ s.between literal blank ++ line
        let (lineEnd, c) := match c.takeBreak? with
          | some (ch, next) => ([ch], next)
          | none => ([], c)
        let (_, blankLines, c) ← takeBlankLines (some indent) (c.rest.length + 1) c 0 []
        takeBlockLines literal indent fuel ⟨c, text, lineEnd, blankLines, blank⟩

/-- The line ends that are kept at the end of a block. -/
def BlockState.ending (chomping : Chomping) (s : BlockState) : List Char :=
  match chomping with
  | .strip => []
  | .clip => s.lineEnd
  | .keep => s.lineEnd ++ s.blankLines

/-- **The block scalar ahead**, after its indicator, and the place after
it. `parent` is the column of the block around it, or minus one. -/
def takeBlock (literal : Bool) (parent : Int) (c : Cursor) : Option (String × Cursor) := do
  let (chomping, increment, c) ← takeHeader c
  let c := c.skip isBlank
  let c := if c.sees '#' then c.skip fun ch => !isBreak ch else c
  guard c.atLineEnd
  let c := match c.takeBreak? with
    | some (_, next) => next
    | none => c
  let known : Option Nat :=
    if increment = 0 then none else some ((max parent 0).toNat + increment)
  let (greatest, blankLines, c) ← takeBlankLines known (c.rest.length + 1) c 0 []
  let indent := known.getD (max greatest (max (parent + 1).toNat 1))
  let s ← takeBlockLines literal indent (c.rest.length + 1) ⟨c, [], [], blankLines, false⟩
  return (String.ofList (s.text ++ s.ending chomping), s.cursor)

end Karnaugh.Yaml
