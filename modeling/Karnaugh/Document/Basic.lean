/-!
# Documents

What is written to a file, or read from one, is a document: a value made of
numbers, texts, lists and records, whatever the format of the file. The
formats differ in how they write the parts, not in what the parts are.
-/

namespace Karnaugh

/-- **A document.** -/
inductive Document where
  /-- Nothing. -/
  | null
  /-- A truth value. -/
  | bool (b : Bool)
  /-- A whole number. -/
  | nat (n : Nat)
  /-- A number of a drawing. -/
  | float (x : Float)
  /-- What is put in as it is. -/
  | verbatim (text : String)
  /-- A text. -/
  | text (s : String)
  /-- A list. -/
  | list (items : List Document)
  /-- Named fields, in order. -/
  | record (fields : List (String × Document))

namespace Document

/-- A list of whole numbers. -/
def nats (ns : List Nat) : Document := .list (ns.map .nat)

/-- A value that may be missing. -/
def ofOption (d : Option Document) : Document := d.getD .null

end Document

end Karnaugh
