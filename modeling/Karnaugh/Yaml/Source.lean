import Karnaugh.Document.Source
import Karnaugh.Yaml.Node
import Karnaugh.Yaml.Scalar

/-!
# Documents in YAML

A record is a mapping whose keys are scalars, and a list a sequence. Where
nothing is written, a list is empty. Numbers and truth values are plain
scalars; a text is a scalar however it is written. A choice can be made by
its name, or by a tag with nothing after it.
-/

namespace Karnaugh.Yaml

namespace Node

/-- The tag that YAML has for a kind of scalar. -/
def kindTag (kind : String) : String := "tag:yaml.org,2002:" ++ kind

/-- The text of a scalar that can stand for a value of a kind: a plain one,
or a literal one with the tag for it. -/
def plainText? (kind : String) : Node → Option String
  | .scalar .plain _ text => some text
  | .scalar .literal tag text => if tag = some (kindTag kind) then some text else none
  | _ => none

/-- Whether nothing is written. -/
def isNothing : Node → Bool
  | .scalar .plain _ text => text.isEmpty
  | _ => false

/-- A text. -/
def text? : Node → Option String
  | .scalar _ _ text => some text
  | _ => none

/-- A whole number below a bound. -/
def nat? (bound : Nat) (node : Node) : Option Nat := do
  let n ← Yaml.nat? (← node.plainText? "int")
  guard (n < bound)
  return n

/-- The items of a list. -/
def list? : Node → Option (List Node)
  | .sequence items => some items
  | node => if node.isNothing then some [] else none

/-- Whether nothing stands for a value. After the tag for nothing, nothing
else may follow. -/
def null? : Node → Option Bool
  | .scalar .plain none text => some (text.isEmpty || isNullWord text)
  | .scalar .plain (some tag) text =>
    if tag = kindTag "null" then (if isNullWord text then some true else none) else some false
  | _ => some false

/-- A key. -/
def key? (field : Node × Node) : Option (String × Node) := do
  return (← field.1.text?, field.2)

/-- The value of the only field with a name: nothing if there is none, and
no answer if there are several. -/
def onlyField? (fields : List (String × Node)) (name : String) : Option (Option Node) :=
  match fields.filter fun field => field.1 == name with
  | [] => some none
  | [field] => some (some field.2)
  | _ => none

/-- The values of the fields of a record. -/
def fields? (names : List String) : Node → Option (List (Option Node))
  | .mapping fields => do
    let fields ← fields.mapM key?
    names.mapM (onlyField? fields)
  | node => if node.isNothing then some (names.map fun _ => none) else none

/-- The name of a choice without parts. -/
def choice? : Node → Option String
  | .scalar style tag text =>
    match tag.map String.toList with
    | some ('!' :: name) =>
      if style = .plain ∧ (text.isEmpty ∨ isNullWord text) then some (String.ofList name)
      else none
    | _ => some text
  | _ => none

end Node

instance : Source Node where
  nat? := Node.nat?
  float? node := do float? (← node.plainText? "float")
  bool? node := do truth? (← node.plainText? "bool")
  text? := Node.text?
  list? := Node.list?
  null? := Node.null?
  fields? := Node.fields?
  choice? := Node.choice?

end Karnaugh.Yaml
