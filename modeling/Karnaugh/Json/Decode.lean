import Karnaugh.Document.Encode
import Karnaugh.Json.Reader
import Karnaugh.Json.Source

/-!
# Reading what is kept in JSON

Everything that is written as a document can be read back from JSON. What
is kept of layouts and grids is read as it stands; patterns are checked.

A value with a **kind** – a span, a region or a shape – says first which it
is, in a field of its own or as the first item of a list. As the rest can
be read only after that, all of it must be sound: texts that are texts,
numbers in range, and not more than 127 lists and objects inside each
other.
-/

namespace Karnaugh.Json

open Source

mutual

/-- Whether every part of a value can be read. -/
def isSound : Value → Bool
  | .garbled => false
  | .number literal => (number? literal).isSome
  | .array items => areSound items
  | .object fields => areSoundFields fields
  | .null | .bool _ | .text _ => true

/-- Whether every part of every item can be read. -/
def areSound : List Value → Bool
  | [] => true
  | value :: rest => isSound value && areSound rest

/-- Whether every part of every field can be read. -/
def areSoundFields : List (Option String × Value) → Bool
  | [] => true
  | field :: rest => isSoundField field && areSoundFields rest

/-- Whether every part of a field can be read. -/
def isSoundField : Option String × Value → Bool
  | (name, value) => name.isSome && isSound value

end

mutual

/-- How many lists and objects are inside each other. -/
def depth : Value → Nat
  | .array items => depthItems items + 1
  | .object fields => depthFields fields + 1
  | .null | .bool _ | .text _ | .garbled | .number _ => 0

/-- The greatest depth of items. -/
def depthItems : List Value → Nat
  | [] => 0
  | value :: rest => max (depth value) (depthItems rest)

/-- The greatest depth of fields. -/
def depthFields : List (Option String × Value) → Nat
  | [] => 0
  | field :: rest => max (depthField field) (depthFields rest)

/-- The depth of a field's value. -/
def depthField : Option String × Value → Nat
  | (_, value) => depth value

end

/-- The greatest depth of a value with a kind. -/
def depthLimit : Nat := 127

/-- **The kind of a value and the rest of it**, the kind being given under
a name or as the first item. -/
def kind? (tag : String) : Value → Option (Value × Value)
  | .object fields => do
    let named ← Value.namedFields? fields
    let kind ← ← Value.onlyField? named tag
    return (kind, .object (fields.filter fun field => field.1 != some tag))
  | .array (kind :: rest) => some (kind, .array rest)
  | _ => none

/-- The rest of a value that can be read in full, with its kind by name. -/
def tagged? (tag : String) (value : Value) : Option (String × Value) := do
  guard (isSound value ∧ depth value ≤ depthLimit)
  let (kind, rest) ← kind? tag value
  return (← kind.text?, rest)

/-- Whether a value stands for the lack of any parts inside a value with a
kind: an empty object will do. -/
def isUnit : Value → Bool
  | .null => true
  | .object [] => true
  | _ => false

/-- The name of a choice without parts, inside a value with a kind. -/
def innerChoice? (value : Value) : Option String :=
  match value with
  | .text s => some s
  | value =>
    match value.single? with
    | some (name, inner) => if isUnit inner then some name else none
    | none => none

/-- Sizes under the given names. -/
def sizes? (names : List String) (value : Value) : Option (List Nat) := do
  (← fields? names value).mapM fun field => do size? (← field)

/-- Reads a pattern. -/
def pattern? (value : Value) : Option Pattern := do
  (Pattern.ofText (← text? value)).toOption

/-- Reads a literal. -/
def literal? (value : Value) : Option Literal := do
  match ← fields? ["variable", "negated"] value with
  | [position, negated] => return ⟨← size? (← position), ← bool? (← negated)⟩
  | _ => none

/-- Reads a cell. -/
def cell? (value : Value) : Option Cell := do
  match ← sizes? ["row", "col"] value with
  | [row, col] => return ⟨row, col⟩
  | _ => none

/-- Reads what is kept of a layout. -/
def layout? (value : Value) : Option StoredLayout := do
  match ← fields? ["num_vars", "row_bits", "col_bits"] value with
  | [numVars, rowBits, colBits] =>
    return ⟨← word? (← numVars), ← word? (← rowBits), ← word? (← colBits)⟩
  | _ => none

/-- Reads a cell state. -/
def cellState? (value : Value) : Option CellState := do
  let name ← choice? value
  [CellState.off, .on, .dontCare].find? fun state => state.name == name

/-- Reads what is kept of a grid. -/
def grid? (value : Value) : Option StoredGrid := do
  match ← fields? ["layout", "cells"] value with
  | [layout, cells] => return ⟨← layout? (← layout), ← listOf? cellState? (← cells)⟩
  | _ => none

/-- Reads a request. Don't-cares may be missing. -/
def request? (value : Value) : Option Request := do
  match ← fields? ["num_vars", "minterms", "dont_cares"] value with
  | [numVars, minterms, dontCares] =>
    return ⟨← word? (← numVars), ← words? (← minterms), ← orElse? [] words? dontCares⟩
  | _ => none

/-- Reads an implicant. -/
def implicant? (value : Value) : Option Implicant := do
  match ← fields? ["pattern", "covered_minterms"] value with
  | [pattern, minterms] => return ⟨← pattern? (← pattern), ← words? (← minterms)⟩
  | _ => none

/-- Whether an object has no fields but those with the given names. -/
def hasOnly (names : List String) : Value → Bool
  | .object fields => fields.all fun field => (field.1.map names.contains).getD false
  | _ => true

/-- Reads a span of time, and of nothing else. What is over a second in the
fraction counts as seconds. -/
def duration? (value : Value) : Option Duration := do
  guard (hasOnly ["secs", "nanos"] value)
  match ← fields? ["secs", "nanos"] value with
  | [secs, nanos] =>
    let secs ← size? (← secs)
    let nanos ← word? (← nanos)
    let total := secs + nanos / 1000000000
    if total < sizeBound then return ⟨total, nanos % 1000000000⟩ else none
  | _ => none

/-- Reads statistics. -/
def statistics? (value : Value) : Option Statistics := do
  match ← fields? ["prime_count", "essential_count", "exact_cover", "solve_time"] value with
  | [primes, essentials, exact, time] =>
    return ⟨← size? (← primes), ← size? (← essentials), ← bool? (← exact),
      ← duration? (← time)⟩
  | _ => none

/-- Reads an answer. Statistics may be missing. -/
def answer? (value : Value) : Option Answer := do
  match ← fields? ["expression", "implicants", "prime_implicants", "statistics"] value with
  | [expression, implicants, primes, statistics] =>
    return ⟨← text? (← expression), ← listOf? implicant? (← implicants),
      ← listOf? implicant? (← primes), ← orElse? .none statistics? statistics⟩
  | _ => none

/-- Reads the parts of a span of a given kind. -/
def spanParts? (kind : String) (rest : Value) : Option AxisSpan := do
  match kind with
  | "run" =>
    match ← sizes? ["start", "end"] rest with
    | [first, last] => return .run first last
    | _ => none
  | "wrap" =>
    match ← sizes? ["head_end", "tail_start", "extent"] rest with
    | [headEnd, tailStart, extent] => return .wrap headEnd tailStart extent
    | _ => none
  | _ => none

/-- **Reads a span** of an axis. -/
def span? (value : Value) : Option AxisSpan := do
  let (kind, rest) ← tagged? "kind" value
  spanParts? kind rest

/-- The kind of a span inside a region: its name, or its place among the
kinds. -/
def innerKind? : Value → Option String
  | .text s => some s
  | value => do ["run", "wrap"][← value.nat? 2]?

/-- Reads a span inside a region. -/
def innerSpan? (value : Value) : Option AxisSpan := do
  let (kind, rest) ← kind? "kind" value
  spanParts? (← innerKind? kind) rest

/-- Reads a reason why a group is no region, given how choices without
parts are read. -/
def shapeFaultBy? (name? : Value → Option String) (value : Value) : Option ShapeFault :=
  match name? value with
  | some "empty" => some .empty
  | some "non_contiguous_rows" => some .nonContiguousRows
  | some "non_contiguous_cols" => some .nonContiguousCols
  | _ => do
    match ← value.single? with
    | ("not_power_of_two", parts) =>
      match ← sizes? ["count"] parts with
      | [count] => return .notPowerOfTwo count
      | _ => none
    | ("too_large", parts) =>
      match ← sizes? ["count", "capacity"] parts with
      | [count, capacity] => return .tooLarge count capacity
      | _ => none
    | ("incomplete_bounding_box", parts) =>
      match ← sizes? ["count", "rows", "cols"] parts with
      | [count, rows, cols] => return .incompleteBoundingBox count rows cols
      | _ => none
    | ("minterm_out_of_range", minterm) => return .mintermOutOfRange (← word? minterm)
    | _ => none

/-- Reads a reason why a group is no region. -/
def shapeFault? (value : Value) : Option ShapeFault := shapeFaultBy? choice? value

/-- Reads the region of a kind. -/
def regionParts? (make : AxisSpan → AxisSpan → Region) (rest : Value) : Option Verdict := do
  match ← fields? ["rows", "cols"] rest with
  | [rows, cols] => return .ok (make (← innerSpan? (← rows)) (← innerSpan? (← cols)))
  | _ => none

/-- **Reads a verdict**: a region, or why there is none. -/
def verdict? (value : Value) : Option Verdict := do
  let (kind, rest) ← tagged? "kind" value
  match kind with
  | "rectangle" => regionParts? .rectangle rest
  | "wrapped_rows" => regionParts? .wrappedRows rest
  | "wrapped_cols" => regionParts? .wrappedCols rest
  | "wrapped_both" => regionParts? .wrappedBoth rest
  | "invalid" =>
    match ← fields? ["reason"] rest with
    | [reason] => return .error (← shapeFaultBy? innerChoice? (← reason))
    | _ => none
  | _ => none

/-- Numbers of a drawing under the given names. -/
def floats? (names : List String) (value : Value) : Option (List Float) := do
  (← fields? names value).mapM fun field => do float? (← field)

/-- Reads a box. -/
def box? (value : Value) : Option Box := do
  match ← floats? ["x", "y", "width", "height"] value with
  | [x, y, width, height] => return ⟨x, y, width, height⟩
  | _ => none

/-- Reads equal cells. -/
def uniformGeometry? (value : Value) : Option UniformGeometry := do
  match ← fields? ["origin_x", "origin_y", "cell_width", "cell_height", "gap", "rows", "cols"]
      value with
  | [x, y, width, height, gap, rows, cols] =>
    return ⟨← float? (← x), ← float? (← y), ← float? (← width), ← float? (← height),
      ← float? (← gap), ← size? (← rows), ← size? (← cols)⟩
  | _ => none

/-- Reads a loop style. -/
def loopStyle? (value : Value) : Option LoopStyle := do
  match ← floats? ["padding", "corner_radius"] value with
  | [padding, cornerRadius] => return ⟨padding, cornerRadius⟩
  | _ => none

/-- The side of a name. -/
def sideOfName? (name : String) : Option Side :=
  [Side.top, .right, .bottom, .left].find? fun side => side.name == name

/-- The corner of a name. -/
def cornerOfName? (name : String) : Option Corner :=
  [Corner.topLeft, .topRight, .bottomLeft, .bottomRight].find? fun corner => corner.name == name

/-- Reads a side. -/
def side? (value : Value) : Option Side := do sideOfName? (← choice? value)

/-- Reads a corner. -/
def corner? (value : Value) : Option Corner := do cornerOfName? (← choice? value)

/-- The names of the numbers of a shape. -/
def shapeNumbers : List String := ["x", "y", "width", "height", "corner_radius"]

/-- The shape of a piece from its numbers. -/
def shapeOf? (cut : Cut) (numbers : List (Option Value)) : Option Shape := do
  match ← numbers.mapM fun field => do float? (← field) with
  | [x, y, width, height, radius] => return ⟨cut, ⟨x, y, width, height⟩, radius⟩
  | _ => none

/-- **Reads a shape.** -/
def shape? (value : Value) : Option Shape := do
  let (kind, rest) ← tagged? "shape" value
  match kind with
  | "rounded_rect" => shapeOf? .whole (← fields? shapeNumbers rest)
  | "open_sided_path" =>
    match ← fields? ("open_side" :: shapeNumbers) rest with
    | side :: numbers =>
      shapeOf? (.half (← sideOfName? (← innerChoice? (← side)))) numbers
    | _ => none
  | "corner_fragment" =>
    match ← fields? ("corner" :: shapeNumbers) rest with
    | corner :: numbers =>
      shapeOf? (.quarter (← cornerOfName? (← innerChoice? (← corner)))) numbers
    | _ => none
  | _ => none

end Karnaugh.Json
