import Karnaugh.Yaml.Gap

/-!
# Plain scalars

A plain scalar is written without quotes and ends where something else
begins: at a colon before a gap, at a comment, at a mark between documents,
at a bracket or comma inside brackets, and at a line that is not set in far
enough.
-/

namespace Karnaugh.Yaml

/-- Whether a character is one of those that give a collection in brackets
its structure. -/
def isFlowMark (ch : Char) : Bool :=
  ch == ',' || ch == '[' || ch == ']' || ch == '\x7b' || ch == '\x7d'

/-- The word ahead, up to a gap or to what ends a plain scalar. Inside
brackets, a colon right before a bracket or comma is an error. -/
def takeWord (inFlow : Bool) : List Char → Option (List Char)
  | [] => some []
  | ch :: rest =>
    if !isSolid ch then some []
    else if ch = ':' then
      match rest with
      | [] => some []
      | next :: _ =>
        if !isSolid next then some []
        else if inFlow && (isFlowMark next || next == '?') then none
        else (takeWord inFlow rest).map (ch :: ·)
    else if inFlow && isFlowMark ch then some []
    else (takeWord inFlow rest).map (ch :: ·)

/-- What is known of a plain scalar while it is read. -/
structure PlainState where
  /-- The place reached. -/
  cursor : Cursor
  /-- The text so far. -/
  text : List Char
  /-- The gap after it. -/
  gap : Gap

/-- Reads words and gaps until something ends the scalar. -/
def takePlainFrom (inFlow : Bool) (indent : Nat) : Nat → PlainState → Option PlainState
  | 0, s => some s
  | fuel + 1, s =>
    if s.cursor.atDocumentMark || s.cursor.sees '#' then some s
    else do
      let word ← takeWord inFlow s.cursor.rest
      if word.isEmpty then return s
      let text := s.text ++ s.gap.fold ++ word
      let cursor := s.cursor.advance word.length
      if cursor.rest.isEmpty ∨ !cursor.gapAt 0 then return ⟨cursor, text, .blanks []⟩
      let (gap, cursor) ← takeGap indent cursor
      if !inFlow ∧ cursor.column < indent then return ⟨cursor, text, gap⟩
      takePlainFrom inFlow indent fuel ⟨cursor, text, gap⟩

/-- **The plain scalar ahead**, whether a line ended after it, and the place
after it. Its lines must reach the column `indent`. -/
def takePlain (inFlow : Bool) (indent : Nat) (c : Cursor) :
    Option (String × Bool × Cursor) := do
  let s ← takePlainFrom inFlow indent (c.rest.length + 1) ⟨c, [], .blanks []⟩
  return (String.ofList s.text, s.gap.isBroken, s.cursor)

end Karnaugh.Yaml
