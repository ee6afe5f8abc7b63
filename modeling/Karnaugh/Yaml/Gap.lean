import Karnaugh.Yaml.Cursor

/-!
# Gaps between words

A scalar that goes over several lines is one line when it is read: what is
between two of its words – the blanks, or the ends of lines with the blanks
around them – is folded. One end of a line becomes a space, and of several
the first is dropped. Blanks on the same line are kept.
-/

namespace Karnaugh.Yaml

/-- **What is between two words.** -/
inductive Gap where
  /-- Blanks on one line. -/
  | blanks (chars : List Char)
  /-- The end of a line, and those of the blank lines after it. -/
  | lines (first : Char) (more : List Char)
  /-- The ends of blank lines after a line that was continued. -/
  | continued (more : List Char)

namespace Gap

/-- What is read for a gap. -/
def fold : Gap → List Char
  | blanks chars => chars
  | lines first more =>
    if first = '\n' then (if more.isEmpty then [' '] else more) else first :: more
  | continued more => more

/-- Whether the gap goes over a line's end. -/
def isBroken : Gap → Bool
  | blanks _ => false
  | _ => true

/-- A blank more. At the start of a line it does not count. -/
def addBlank (ch : Char) : Gap → Gap
  | blanks chars => blanks (chars ++ [ch])
  | gap => gap

/-- The end of a line more. Blanks before it do not count. -/
def addBreak (ch : Char) : Gap → Gap
  | blanks _ => lines ch []
  | lines first more => lines first (more ++ [ch])
  | continued more => continued (more ++ [ch])

end Gap

/-- The gap ahead, after some of it. A tab may not stand before column
`tabLimit` at the start of a line. -/
def takeGapFrom (tabLimit : Nat) : Nat → Cursor → Gap → Option (Gap × Cursor)
  | 0, c, gap => some (gap, c)
  | fuel + 1, c, gap =>
    match c.takeBreak? with
    | some (ch, next) => takeGapFrom tabLimit fuel next (gap.addBreak ch)
    | none =>
      match c.rest with
      | ch :: _ =>
        if isBlank ch then
          if ch = '\t' ∧ gap.isBroken ∧ c.column < tabLimit then none
          else takeGapFrom tabLimit fuel (c.advance 1) (gap.addBlank ch)
        else some (gap, c)
      | [] => some (gap, c)

/-- **The gap ahead** and the place after it. -/
def takeGap (tabLimit : Nat) (c : Cursor) : Option (Gap × Cursor) :=
  takeGapFrom tabLimit c.rest.length c (.blanks [])

end Karnaugh.Yaml
