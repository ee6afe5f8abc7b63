import Karnaugh.Document.Source
import Karnaugh.Json.Number
import Karnaugh.Json.Value

/-!
# Documents in JSON

A record is an object, or a list with the values of its fields in order. A
choice without parts is its name, or an object with the name alone and
nothing as its value.
-/

namespace Karnaugh.Json

namespace Value

/-- A whole number below a bound. -/
def nat? (bound : Nat) : Value → Option Nat
  | number literal =>
    match number? literal with
    | some (.nat n) => if n < bound then some n else none
    | _ => none
  | _ => none

/-- A number of a drawing. Whole numbers will do. -/
def float? : Value → Option Float
  | number literal =>
    (number? literal).map fun
      | .nat n => Float.ofNat n
      | .negative n => -(Float.ofNat n)
      | .float x => x
  | _ => none

/-- A truth value. -/
def bool? : Value → Option Bool
  | bool b => some b
  | _ => none

/-- A text. -/
def text? : Value → Option String
  | text s => some s
  | _ => none

/-- The items of a list. -/
def list? : Value → Option (List Value)
  | array items => some items
  | _ => none

/-- Whether it is the word `null`. -/
def isNull : Value → Bool
  | null => true
  | _ => false

/-- The value of the only field with a name: nothing if there is none, and
no answer if there are several. -/
def onlyField? (fields : List (String × Value)) (name : String) : Option (Option Value) :=
  match fields.filter fun field => field.1 == name with
  | [] => some none
  | [field] => some (some field.2)
  | _ => none

/-- The fields of an object, if all of their names can be read. -/
def namedFields? (fields : List (Option String × Value)) : Option (List (String × Value)) :=
  fields.mapM fun field => field.1.map fun name => (name, field.2)

/-- The values of the fields of a record: by name, or by place. -/
def fields? (names : List String) : Value → Option (List (Option Value))
  | object fields => do
    let fields ← namedFields? fields
    names.mapM (onlyField? fields)
  | array items =>
    if items.length ≤ names.length then
      some ((List.range names.length).map fun place => items[place]?)
    else none
  | _ => none

/-- The name and the value of an object with one field. -/
def single? : Value → Option (String × Value)
  | object [(some name, value)] => some (name, value)
  | _ => none

/-- The name of a choice without parts. -/
def choice? (value : Value) : Option String :=
  match value with
  | text s => some s
  | value =>
    match single? value with
    | some (name, null) => some name
    | _ => none

end Value

instance : Source Value where
  nat? := Value.nat?
  float? := Value.float?
  bool? := Value.bool?
  text? := Value.text?
  list? := Value.list?
  null? value := some value.isNull
  fields? := Value.fields?
  choice? := Value.choice?

end Karnaugh.Json
