import Karnaugh.Settings.Basic
import Karnaugh.Spec.Basic
import Karnaugh.Text.Numeral

/-!
# Reading documents

Files in different formats are read by the same rules: a record has the
fields it must have, each at most once, and what else it has does not
matter. What counts as a number, a text or a record is up to the format. A
`Source` is a kind of value that can be asked these questions, and problems
and settings are read from any source.
-/

namespace Karnaugh

/-- **Values that can be read** as parts of a document. -/
class Source (ν : Type) where
  /-- A whole number below a bound. -/
  nat? (bound : Nat) (value : ν) : Option Nat
  /-- A number of a drawing. -/
  float? (value : ν) : Option Float
  /-- A truth value. -/
  bool? (value : ν) : Option Bool
  /-- A text. -/
  text? (value : ν) : Option String
  /-- The items of a list. -/
  list? (value : ν) : Option (List ν)
  /-- Whether nothing stands for a value, as far as that can be told. -/
  null? (value : ν) : Option Bool
  /-- The values of the fields with the given names, where they are
  given. -/
  fields? (names : List String) (value : ν) : Option (List (Option ν))
  /-- The name of a choice that has no parts. -/
  choice? (value : ν) : Option String

namespace Source

variable {ν : Type} [Source ν]

/-- The greatest sizes and limits fit 64 bits. -/
def sizeBound : Nat := Nat.pow 2 64

/-- A number of minterms or variables. -/
def word? (value : ν) : Option Nat := nat? Text.wordBound value

/-- A size, place or limit. -/
def size? (value : ν) : Option Nat := nat? sizeBound value

/-- Reads every item of a list. -/
def listOf? {α : Type} (item? : ν → Option α) (value : ν) : Option (List α) := do
  (← list? value).mapM item?

/-- Reads a list of minterms. -/
def words? (value : ν) : Option (List Nat) := listOf? word? value

/-- A value that may be missing. -/
def optional? {α : Type} (read? : ν → Option α) : Option ν → Option (Option α)
  | none => some none
  | some value => do
    if ← null? value then return none
    return some (← read? value)

/-- A value with a default for when it is missing. -/
def orElse? {α : Type} (default : α) (read? : ν → Option α) : Option ν → Option α
  | none => some default
  | some value => read? value

end Source

open Source

variable {ν : Type} [Source ν]

/-- **Reads a problem.** Don't-cares and expression may be missing. -/
def Spec.read? (value : ν) : Option Spec := do
  match ← fields? ["num_vars", "minterms", "dont_cares", "expression"] value with
  | [numVars, minterms, dontCares, expression] =>
    return {
      numVars := ← word? (← numVars)
      minterms := ← words? (← minterms)
      dontCares := ← orElse? [] words? dontCares
      expression := ← optional? text? expression }
  | _ => none

/-- Reads a format. -/
def OutputFormat.read? (value : ν) : Option OutputFormat := do
  OutputFormat.ofName? (← choice? value)

/-- Reads the settings for cells. -/
def GeometrySettings.read? (value : ν) : Option GeometrySettings := do
  match ← fields? ["origin_x", "origin_y", "cell_width", "cell_height", "gap"] value with
  | [originX, originY, cellWidth, cellHeight, gap] =>
    return ⟨← float? (← originX), ← float? (← originY), ← float? (← cellWidth),
      ← float? (← cellHeight), ← float? (← gap)⟩
  | _ => none

/-- Reads the settings for loops. -/
def LoopSettings.read? (value : ν) : Option LoopSettings := do
  match ← fields? ["padding", "corner_radius", "stroke_width", "palette"] value with
  | [padding, cornerRadius, strokeWidth, palette] =>
    return ⟨← float? (← padding), ← float? (← cornerRadius), ← float? (← strokeWidth),
      ← listOf? text? (← palette)⟩
  | _ => none

/-- Reads the settings for solving. -/
def SolverSettings.read? (value : ν) : Option SolverSettings := do
  match ← fields? ["exact_cover_limit", "cross_check"] value with
  | [limit, crossCheck] => return ⟨← size? (← limit), ← bool? (← crossCheck)⟩
  | _ => none

/-- Reads the settings for output. -/
def OutputSettings.read? (value : ν) : Option OutputSettings := do
  match ← fields? ["format", "output_directory"] value with
  | [format, directory] => return ⟨← OutputFormat.read? (← format), ← text? (← directory)⟩
  | _ => none

/-- **Reads settings.** Every part must be given. -/
def Settings.read? (value : ν) : Option Settings := do
  match ← fields? ["geometry", "loops", "solver", "output"] value with
  | [geometry, loops, solver, output] =>
    return ⟨← GeometrySettings.read? (← geometry), ← LoopSettings.read? (← loops),
      ← SolverSettings.read? (← solver), ← OutputSettings.read? (← output)⟩
  | _ => none

end Karnaugh
