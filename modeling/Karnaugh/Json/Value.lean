/-!
# JSON values

A JSON text is read in two stages. The first finds its values and only
looks at how they are written: numbers stay as they stand, and a text whose
escapes make no text is kept as *garbled*. The second asks a value for what
is needed. So a part that nobody asks for may hold what could not be read.
-/

namespace Karnaugh.Json

/-- **A JSON value as it is written.** -/
inductive Value where
  /-- The word `null`. -/
  | null
  /-- The word `true` or `false`. -/
  | bool (b : Bool)
  /-- A number, as it stands. -/
  | number (literal : List Char)
  /-- A text. -/
  | text (s : String)
  /-- A text whose escapes make no text. -/
  | garbled
  /-- A list. -/
  | array (items : List Value)
  /-- Named values, in order; a name may be garbled. -/
  | object (fields : List (Option String × Value))

end Karnaugh.Json
