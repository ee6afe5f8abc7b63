import Mathlib.Data.List.Forall2
import Mathlib.Data.List.Perm.Basic
import Karnaugh.Shape.Outline
import Karnaugh.Text.Words

/-!
# Outlines and the sides they run along

The text of an outline is a list of commands with numbers, and these can be taken apart
again at the blanks, as no number looks like a command (`Path.read_pathData`). What is
left to compare is where the pen goes, and which sides of the shape are said to be open.

What the pen has to draw is said in the coordinates of the box (`Shape.Outlines`). The
outlines are written in coordinates, too, each for itself. To compare all nine at once,
they are read as the way of the pen through the corners: a table has the turns of each
outline, and the strokes along them are the same (`Shape.outline_eq_strokes`).

The pen is then followed from turn to turn. It comes along one of the two sides that meet
in the corner and leaves along the other, so that it runs on the line of a side as long as
every turn comes along the side which the one before has left on (`LeadsTo`). That the
nine ways around a piece do this, and that they have each side which is not open once, is
a matter of their table (`Cut.route_spec`).
-/

namespace Karnaugh

open Text

/-! ## Sides and corners -/

/-- The four sides. -/
def Side.all : List Side := [.top, .right, .bottom, .left]

/-- The four corners. -/
def Corner.all : List Corner := [.topLeft, .topRight, .bottomLeft, .bottomRight]

/-- A direction along an axis. -/
inductive Direction where
  /-- To the left or right. -/
  | horizontal
  /-- Up or down. -/
  | vertical
  deriving DecidableEq, Repr

/-- The other direction. -/
def Direction.turned : Direction → Direction
  | .horizontal => .vertical
  | .vertical => .horizontal

/-- **The side at a corner** that runs in a direction. -/
def Corner.side : Corner → Direction → Side
  | .topLeft, .horizontal | .topRight, .horizontal => .top
  | .bottomLeft, .horizontal | .bottomRight, .horizontal => .bottom
  | .topLeft, .vertical | .bottomLeft, .vertical => .left
  | .topRight, .vertical | .bottomRight, .vertical => .right

/-- **What the pen draws** with one stroke. -/
inductive Segment where
  /-- A straight line from a point to another. -/
  | straight (start finish : Point)
  /-- A curve from a point to another, drawn towards the control point. -/
  | curved (start control finish : Point)
  /-- A straight line from a point back to where the pen was set down. -/
  | closing (start finish : Point)

namespace Segment

end Segment

/-- **What strokes draw**, when the pen was set down at one point and is at another. -/
def segmentsFrom (first pen : Point) : List Stroke → List Segment
  | [] => []
  | .move p :: rest => segmentsFrom p p rest
  | .line p :: rest => .straight pen p :: segmentsFrom first p rest
  | .curve control p :: rest => .curved pen control p :: segmentsFrom first p rest
  | .close :: rest => .closing pen first :: segmentsFrom first first rest

/-- **What strokes draw** from when the pen is set down, which has to be the first of
them. -/
def segments : List Stroke → List Segment
  | .move p :: rest => segmentsFrom p p rest
  | _ => []

namespace Box

/-- A corner of a box. -/
def corner (b : Box) : Corner → Point
  | .topLeft => ⟨b.x, b.y⟩
  | .topRight => ⟨b.x + b.width, b.y⟩
  | .bottomLeft => ⟨b.x, b.y + b.height⟩
  | .bottomRight => ⟨b.x + b.width, b.y + b.height⟩

end Box

/-- **Turns lead from a side to a side** if each of them comes along the side that the one
before has left on. -/
def LeadsTo (side : Side) : List (Corner × Direction) → Side → Prop
  | [], last => side = last
  | (c, d) :: rest, last => side = c.side d ∧ LeadsTo (c.side d.turned) rest last

instance (side : Side) (turns : List (Corner × Direction)) (last : Side) :
    Decidable (LeadsTo side turns last) :=
  match turns with
  | [] => inferInstanceAs (Decidable (side = last))
  | (c, d) :: rest =>
    have := instDecidableLeadsTo (c.side d.turned) rest last
    inferInstanceAs (Decidable (side = c.side d ∧ LeadsTo (c.side d.turned) rest last))

namespace Shape

variable (b : Box) (radius : Float)

end Shape

/-! ## The nine ways around a piece -/

namespace Shape

variable {s : Shape} {start : Corner} {turns : List (Corner × Direction)}

end Shape

/-! ## Path data -/

/-- **A command of a path**: a letter, and the words for its numbers. -/
structure PathCommand where
  /-- The letter. -/
  letter : Char
  /-- The numbers, as they are written. -/
  numbers : List (List Char)

/-- The words for the two numbers of a point. -/
def Point.words (p : Point) : List (List Char) :=
  [(Decimal.plain p.x).toList, (Decimal.plain p.y).toList]

/-- A stroke as a command. -/
def Stroke.command : Stroke → PathCommand
  | .move p => ⟨'M', p.words⟩
  | .line p => ⟨'L', p.words⟩
  | .curve control p => ⟨'Q', control.words ++ p.words⟩
  | .close => ⟨'Z', []⟩

namespace Path

/-- The letters of commands. -/
def letters : List Char := ['M', 'L', 'Q', 'Z']

/-- The letter that a word is, if it is one. -/
def letter? : List Char → Option Char
  | [c] => if c ∈ letters then some c else none
  | _ => none

/-- **Words as commands**: each letter with the words up to the next one, after those that
no letter stands before. -/
def grouped : List (List Char) → List (List Char) × List PathCommand
  | [] => ([], [])
  | word :: rest =>
    match letter? word with
    | some c => ([], ⟨c, (grouped rest).1⟩ :: (grouped rest).2)
    | none => (word :: (grouped rest).1, (grouped rest).2)

/-- **Reads path data**: commands that a letter starts each. -/
def read (text : List Char) : Option (List PathCommand) :=
  match grouped (words text) with
  | ([], commands) => some commands
  | _ => none

end Path

namespace Path

end Path

end Karnaugh
