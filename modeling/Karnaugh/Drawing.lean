import Karnaugh.Implicant
import Karnaugh.Shape.Synthesis

/-!
# Drawings

A drawing has a loop for each implicant: a color, a strength, and the
shapes that make up its outline. Implicants are drawn one by one. One that
cannot be drawn – because its minterms are no rectangle, or are not those
of its pattern – is skipped with the reason why, and does not disturb the
others. A cell that has no place ends the drawing.

Colors are taken from a palette in turn, by the place of the implicant.
-/

namespace Karnaugh

/-- **The colors of loops**, unless others are chosen. -/
def standardPalette : List String :=
  ["#FF3B30", "#34C759", "#007AFF", "#FF9500", "#AF52DE", "#FFCC00", "#FF2D55", "#5856D6"]

/-- **The strength of a loop** of `size` minterms when the largest has
`largest`: from 0.3 up to 0.7. -/
def emphasis (size largest : Nat) : Float :=
  if largest = 0 then 0.3
  else 0.3 + 0.4 * Float.ofNat size / Float.ofNat largest

/-- **What a drawing is made on**: the map, where its cells are, and how
loops look. -/
structure Canvas where
  /-- The layout of the map. -/
  layout : Layout
  /-- Where its cells are. -/
  geometry : Geometry
  /-- How loops run around them. -/
  style : LoopStyle
  /-- The colors; none means the usual ones. -/
  palette : List String
  /-- Whether the minterms of an implicant are compared with its
  pattern's. -/
  crossCheck : Bool

/-- **The loop of an implicant.** -/
structure Loop where
  /-- The place of the implicant. -/
  index : Nat
  /-- The place of the color in the palette. -/
  colorIndex : Nat
  /-- The color. -/
  color : String
  /-- The strength. -/
  emphasis : Float
  /-- The pattern. -/
  pattern : Pattern
  /-- The term of the pattern. -/
  term : String
  /-- The minterms inside the loop, ascending. -/
  minterms : List Nat
  /-- The region they fill. -/
  region : Region
  /-- The outline. -/
  shapes : List Shape

/-- **An implicant that was skipped.** -/
structure Skipped where
  /-- The place of the implicant. -/
  index : Nat
  /-- The pattern. -/
  pattern : Pattern
  /-- Why it was skipped. -/
  error : MapError
  deriving DecidableEq, Repr

/-- **A drawing**: the loops and what was skipped, each in the order of the
implicants. -/
structure Drawing where
  /-- The loops. -/
  loops : List Loop
  /-- What was skipped. -/
  skipped : List Skipped

/-- Whether nothing was skipped. -/
def Drawing.isClean (d : Drawing) : Bool := d.skipped.isEmpty

namespace Canvas

variable (canvas : Canvas)

/-- The colors in use. -/
def colors : List String :=
  if canvas.palette.isEmpty then standardPalette else canvas.palette

/-- Refuses minterms that are not those of the pattern, if that is to be
checked. -/
def checkConsistent (pattern : Pattern) (minterms : List Nat) : Except MapError Unit :=
  if canvas.crossCheck ∧ pattern.covered ≠ minterms then
    .error (.inconsistentImplicant pattern pattern.covered minterms)
  else .ok ()

/-- **Draws the loop of an implicant** at a place, given the number of
minterms of the largest. -/
def drawLoop (largest index : Nat) (i : Implicant) : Except MapError Loop := do
  let minterms := ascending i.minterms
  canvas.checkConsistent i.pattern minterms
  let region ← (Region.classify canvas.layout minterms).toResult minterms
  let shapes ← region.shapes canvas.geometry canvas.style
  let colorIndex := index % canvas.colors.length
  return {
    index
    colorIndex
    color := canvas.colors.getD colorIndex ""
    emphasis := Karnaugh.emphasis minterms.length largest
    pattern := i.pattern
    term := i.pattern.term
    minterms
    region
    shapes }

/-- Draws implicants, the first of which is at a given place. -/
def drawFrom (largest : Nat) : Nat → List Implicant → Except MapError Drawing
  | _, [] => .ok ⟨[], []⟩
  | index, i :: rest =>
    match canvas.drawLoop largest index i with
    | .ok loop => do
      let d ← drawFrom largest (index + 1) rest
      return ⟨loop :: d.loops, d.skipped⟩
    | .error e =>
      if e.recoverable then do
        let d ← drawFrom largest (index + 1) rest
        return ⟨d.loops, ⟨index, i.pattern, e⟩ :: d.skipped⟩
      else .error e

/-- The number of minterms of the largest implicant. -/
def largestSize (implicants : List Implicant) : Nat :=
  (implicants.map fun i => i.minterms.length).foldl max 0

/-- **Draws implicants.** -/
def draw (implicants : List Implicant) : Except MapError Drawing :=
  canvas.drawFrom (largestSize implicants) 0 implicants

end Canvas

end Karnaugh
