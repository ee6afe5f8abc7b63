import Karnaugh.Text.Words

/-!
# Reading XML

Pictures are documents for other programs, which read them by the rules of XML. `Xml.read`
is such a reader, for documents that are made of elements, attributes and characters. It
refuses whatever is not well-formed, and gives the document otherwise, with references
resolved, line ends and blanks normalized as the rules want it, and every character an
item of its own. Comments, instructions and declarations, which no picture is meant to have,
are refused as well.

The reader goes from character to character (`Xml.step`). Its state has the elements that
have started and not ended, with what they contain so far.
-/

namespace Karnaugh.Xml

/-! ## Characters -/

/-- Whether a character lies in one of some ranges. -/
def isIn (ranges : List (Nat × Nat)) (c : Char) : Bool :=
  ranges.any fun range => range.1 ≤ c.toNat && c.toNat ≤ range.2

/-- **The characters that documents are made of.** -/
def isLegal : Char → Bool :=
  isIn [(0x09, 0x0A), (0x0D, 0x0D), (0x20, 0xD7FF), (0xE000, 0xFFFD), (0x10000, 0x10FFFF)]

/-- The blanks between the parts of a tag. -/
def isSpace (c : Char) : Bool := [' ', '\t', '\n', '\r'].contains c

/-- The characters that names start with. -/
def isNameStart : Char → Bool :=
  isIn [(0x3A, 0x3A), (0x41, 0x5A), (0x5F, 0x5F), (0x61, 0x7A), (0xC0, 0xD6), (0xD8, 0xF6),
    (0xF8, 0x2FF), (0x370, 0x37D), (0x37F, 0x1FFF), (0x200C, 0x200D), (0x2070, 0x218F),
    (0x2C00, 0x2FEF), (0x3001, 0xD7FF), (0xF900, 0xFDCF), (0xFDF0, 0xFFFD),
    (0x10000, 0xEFFFF)]

/-- The characters that names are made of. -/
def isNameChar (c : Char) : Bool :=
  isNameStart c
    || isIn [(0x2D, 0x2E), (0x30, 0x39), (0xB7, 0xB7), (0x300, 0x36F), (0x203F, 0x2040)] c

/-- The characters that references are made of, up to their semicolon. -/
def isReferenceChar (c : Char) : Bool := c.isAlphanum || c == '#'

/-- The value of a digit. -/
def digit? (c : Char) : Option Nat :=
  "0123456789abcdef".toList.findIdx? (· == c.toLower)

/-- The number that digits stand for. -/
def number? (base : Nat) (digits : List Char) : Option Nat :=
  if digits = [] then none
  else
    digits.foldlM (fun n c => do
      let d ← digit? c
      if d < base then return base * n + d else failure) 0

/-- The character of a number. -/
def character? (n : Nat) : Option Char :=
  if n.isValidChar ∧ isLegal (Char.ofNat n) then some (Char.ofNat n) else none

/-- **The character that a reference stands for**, by what is between `&` and `;`. -/
def reference? : List Char → Option Char
  | ['a', 'm', 'p'] => some '&'
  | ['l', 't'] => some '<'
  | ['g', 't'] => some '>'
  | ['q', 'u', 'o', 't'] => some '"'
  | ['a', 'p', 'o', 's'] => some '\''
  | '#' :: 'x' :: digits => number? 16 digits >>= character?
  | '#' :: digits => number? 10 digits >>= character?
  | _ => none

/-! ## Runs of characters -/

/-- **What characters are read for.** -/
inductive Kind where
  /-- As what an element contains. -/
  | content
  /-- As the value of an attribute, up to a mark. -/
  | value (mark : Char)

namespace Kind

/-- The character that a run of characters ends before. -/
def stop : Kind → Char
  | content => '<'
  | value mark => mark

/-- A character as it is read: line ends are line feeds, and blanks in a value are
spaces. -/
def normal : Kind → Char → Char
  | content, c => if c = '\r' then '\n' else c
  | value _, c => if isSpace c then ' ' else c

/-- Whether a character may stand after others, given from the last one back. What an
element contains may not have `]]>`. -/
def admits : Kind → List Char → Char → Bool
  | content, before, c => isLegal c && c != '<' && !(c == '>' && before.take 2 == [']', ']'])
  | value _, _, c => isLegal c && c != '<'

/-- The characters that do not stand for themselves. -/
def marks : Kind → List Char
  | content => ['<', '&', '\r']
  | value mark => ['<', '&', mark, '\t', '\n', '\r']

/-- **A text is plain** if all of its characters stand for themselves. -/
def Plain (kind : Kind) (text : List Char) : Prop :=
  (∀ c ∈ text, isLegal c = true ∧ c ∉ kind.marks)
    ∧ (kind = .content → ¬[']', ']', '>'] <:+: text)

end Kind

/-- **Characters that are being read.** -/
structure Run where
  /-- What they are so far. -/
  chars : List Char
  /-- How they were written, from the last one back. -/
  before : List Char
  /-- What stands after `&`, in a reference. -/
  reference : Option (List Char)

namespace Run

/-- No characters yet. -/
def start : Run := ⟨[], [], none⟩

/-- **Reads one more character.** -/
def read (kind : Kind) (run : Run) (c : Char) : Option Run :=
  match run.reference with
  | some name =>
    if c = ';' then
      (reference? name).map fun x => ⟨run.chars ++ [x], c :: run.before, none⟩
    else if isReferenceChar c then some { run with reference := some (name ++ [c]) }
    else none
  | none =>
    if c = '&' then some { run with reference := some [] }
    else if !kind.admits run.before c then none
    else if c = '\n' ∧ run.before.head? = some '\r' then
      -- the line has ended already
      some { run with before := c :: run.before }
    else some ⟨run.chars ++ [kind.normal c], c :: run.before, none⟩

end Run

/-! ## Documents -/

/-- **An item of a document**: a character, or an element with its attributes and what it
contains. -/
inductive Item where
  /-- A character. -/
  | char (c : Char)
  /-- An element. -/
  | element (name : List Char) (attributes : List (List Char × List Char))
    (children : List Item)

/-- **A tag that is being read.** -/
structure Tag where
  /-- The name. -/
  name : List Char
  /-- The attributes so far. -/
  attributes : List (List Char × List Char)

/-- A tag with one more attribute. -/
def Tag.add (tag : Tag) (name value : List Char) : Tag :=
  { tag with attributes := tag.attributes ++ [(name, value)] }

/-- Whether a tag has an attribute of a name. -/
def Tag.has (tag : Tag) (name : List Char) : Bool :=
  tag.attributes.any fun a => a.1 == name

/-- The element of a tag, with what it contains. -/
def Tag.element (tag : Tag) (children : List Item) : Item :=
  .element tag.name tag.attributes children

/-- **An element that has started** and not ended. -/
structure Part where
  /-- Its tag. -/
  tag : Tag
  /-- What it contains so far. -/
  children : List Item

namespace Part

/-- With more items in it. -/
def append (part : Part) (items : List Item) : Part :=
  { part with children := part.children ++ items }

theorem append_append (part : Part) (items more : List Item) :
    (part.append items).append more = part.append (items ++ more) := by
  rw [append, append, append, List.append_assoc]

/-- The element, where it ends. -/
def element (part : Part) : Item := part.tag.element part.children

end Part

/-- **Where characters stand.** -/
inductive Spot where
  /-- In the innermost element. -/
  | element
  /-- In the value of an attribute, after a quote. -/
  | value (tag : Tag) (name : List Char) (mark : Char)

/-- What the characters are read for. -/
def Spot.kind : Spot → Kind
  | element => .content
  | value _ _ mark => .value mark

/-- **Where a reader is** in a document. -/
inductive Place where
  /-- Before the first element. -/
  | prolog
  /-- Among characters. -/
  | chars (spot : Spot) (run : Run)
  /-- After `<`. -/
  | markup
  /-- In the name of a tag. -/
  | tagName (name : List Char)
  /-- After the name of a tag or one of its attributes, perhaps after blanks. -/
  | tag (tag : Tag) (spaced : Bool)
  /-- In the name of an attribute. -/
  | attributeName (tag : Tag) (name : List Char)
  /-- After the name of an attribute. -/
  | equals (tag : Tag) (name : List Char)
  /-- Before the value of an attribute. -/
  | quote (tag : Tag) (name : List Char)
  /-- After the slash of a tag that also ends its element. -/
  | slash (tag : Tag)
  /-- In the name of an end tag. -/
  | endName (name : List Char)
  /-- After the name of an end tag. -/
  | endTag (name : List Char)
  /-- After the last element. -/
  | epilog (root : Item)

/-- **The state of a reader**: the elements that have started, from the innermost one
out, and the place. -/
structure State where
  /-- The elements. -/
  parts : List Part
  /-- The place. -/
  place : Place

/-- After an element has ended, in those around it. -/
def State.after (item : Item) : List Part → State
  | [] => ⟨[], .epilog item⟩
  | part :: outer => ⟨part.append [item] :: outer, .chars .element .start⟩

/-- Goes on where a run of characters ends. -/
def stepStop (parts : List Part) (chars : List Char) : Spot → Option State
  | .element =>
    match parts with
    | part :: outer => some ⟨part.append (chars.map .char) :: outer, .markup⟩
    | [] => none
  | .value tag name _ => some ⟨parts, .tag (tag.add name chars) false⟩

/-- Goes on in a tag, after its name or one of its attributes. -/
def stepTag (parts : List Part) (tag : Tag) (spaced : Bool) (c : Char) : Option State :=
  if isSpace c then some ⟨parts, .tag tag true⟩
  else if c = '>' then some ⟨⟨tag, []⟩ :: parts, .chars .element .start⟩
  else if c = '/' then some ⟨parts, .slash tag⟩
  else if spaced ∧ isNameStart c then some ⟨parts, .attributeName tag [c]⟩
  else none

/-- Goes on after the name of an attribute. -/
def stepEquals (parts : List Part) (tag : Tag) (name : List Char) (c : Char) : Option State :=
  if isSpace c then some ⟨parts, .equals tag name⟩
  else if c = '=' then some ⟨parts, .quote tag name⟩
  else none

/-- Goes on after the name of an end tag. -/
def stepEnd (parts : List Part) (name : List Char) (c : Char) : Option State :=
  if isSpace c then some ⟨parts, .endTag name⟩
  else if c = '>' then
    match parts with
    | part :: outer => if part.tag.name = name then some (.after part.element outer) else none
    | [] => none
  else none

/-- **Reads one more character** of a document. -/
def step (s : State) (c : Char) : Option State :=
  match s.place with
  | .prolog =>
    if c = '<' then some { s with place := .markup } else if isSpace c then some s else none
  | .chars spot run =>
    if c = spot.kind.stop ∧ run.reference = none then stepStop s.parts run.chars spot
    else (run.read spot.kind c).map fun run => { s with place := .chars spot run }
  | .markup =>
    if c = '/' then some { s with place := .endName [] }
    else if isNameStart c then some { s with place := .tagName [c] }
    else none
  | .tagName name =>
    if isNameChar c then some { s with place := .tagName (name ++ [c]) }
    else stepTag s.parts ⟨name, []⟩ false c
  | .tag tag spaced => stepTag s.parts tag spaced c
  | .attributeName tag name =>
    if isNameChar c then some { s with place := .attributeName tag (name ++ [c]) }
    else stepEquals s.parts tag name c
  | .equals tag name => stepEquals s.parts tag name c
  | .quote tag name =>
    if isSpace c then some s
    else if (c = '"' ∨ c = '\'') ∧ !tag.has name then
      some { s with place := .chars (.value tag name c) .start }
    else none
  | .slash tag => if c = '>' then some (.after (Part.element ⟨tag, []⟩) s.parts) else none
  | .endName name =>
    if isNameChar c then some { s with place := .endName (name ++ [c]) }
    else stepEnd s.parts name c
  | .endTag name => stepEnd s.parts name c
  | .epilog _ => if isSpace c then some s else none

section

variable (parts : List Part) {c : Char}

theorem step_tagName (h : isNameChar c = true) (name : List Char) :
    step ⟨parts, .tagName name⟩ c = some ⟨parts, .tagName (name ++ [c])⟩ := if_pos h

theorem step_attributeName (h : isNameChar c = true) (tag : Tag) (name : List Char) :
    step ⟨parts, .attributeName tag name⟩ c = some ⟨parts, .attributeName tag (name ++ [c])⟩ :=
  if_pos h

theorem step_endName (h : isNameChar c = true) (name : List Char) :
    step ⟨parts, .endName name⟩ c = some ⟨parts, .endName (name ++ [c])⟩ := if_pos h

/-- What ends the name of a tag is read as after a tag without attributes. -/
theorem step_tagName_of_not (h : isNameChar c = false) (name : List Char) :
    step ⟨parts, .tagName name⟩ c = step ⟨parts, .tag ⟨name, []⟩ false⟩ c :=
  if_neg (Bool.not_eq_true _ ▸ h)

theorem step_tag (tag : Tag) (spaced : Bool) (c : Char) :
    step ⟨parts, .tag tag spaced⟩ c = stepTag parts tag spaced c := rfl

/-- The end tag of an element ends it. -/
theorem step_endName_close (part : Part) :
    step ⟨part :: parts, .endName part.tag.name⟩ '>' = some (.after part.element parts) :=
  if_pos rfl

/-- A quote starts the value of an attribute, if the tag has none of its name. -/
theorem step_quote {tag : Tag} {name : List Char} (h : tag.has name = false) :
    step ⟨parts, .quote tag name⟩ '"' = some ⟨parts, .chars (.value tag name '"') .start⟩ :=
  if_pos ⟨.inl rfl, by rw [h, Bool.not_false]⟩

end

/-- Reads a text in a state. -/
def State.read (s : State) (text : List Char) : Option State := text.foldlM step s

theorem State.read_append (s : State) (text rest : List Char) :
    s.read (text ++ rest) = (s.read text).bind fun t => t.read rest :=
  List.foldlM_append

theorem State.read_cons (s : State) (c : Char) (rest : List Char) :
    s.read (c :: rest) = (step s c).bind fun t => t.read rest :=
  List.foldlM_cons

theorem State.read_append_of {s t : State} {text : List Char} (h : s.read text = some t)
    (rest : List Char) : s.read (text ++ rest) = t.read rest := by
  rw [read_append, h]
  rfl

theorem State.read_cons_of {s t : State} {c : Char} (h : step s c = some t)
    (rest : List Char) : s.read (c :: rest) = t.read rest := by
  rw [read_cons, h]
  rfl

/-- What is read character by character is read in steps. -/
theorem State.read_cons_eq_some_iff {s t : State} {c : Char} {rest : List Char} :
    s.read (c :: rest) = some t ↔ ∃ next, step s c = some next ∧ next.read rest = some t := by
  rw [read_cons, Option.bind_eq_some_iff]

theorem State.read_append_eq_some_iff {s t : State} {text rest : List Char} :
    s.read (text ++ rest) = some t ↔ ∃ next, s.read text = some next ∧ next.read rest = some t := by
  rw [read_append, Option.bind_eq_some_iff]

/-- **Reads a document.** -/
def read (text : List Char) : Option Item :=
  match State.read ⟨[], .prolog⟩ text with
  | some ⟨_, .epilog root⟩ => some root
  | _ => none

theorem read_eq_some_iff {text : List Char} {document : Item} :
    read text = some document
      ↔ ∃ outer, State.read ⟨[], .prolog⟩ text = some ⟨outer, .epilog document⟩ := by
  rw [read]
  constructor
  · intro h
    split at h
    next outer root hread =>
      cases h
      exact ⟨outer, hread⟩
    next => cases h
  · rintro ⟨outer, hread⟩
    rw [hread]

/-! ## What a document has -/

mutual

/-- **The elements of a document** in their order, each before those in it. -/
def Item.elements : Item → List Item
  | .char _ => []
  | .element name attributes children =>
    .element name attributes children :: elementsOf children

/-- The elements among items and in them. -/
def elementsOf : List Item → List Item
  | [] => []
  | item :: rest => item.elements ++ elementsOf rest

end

namespace Item

/-- What an element contains. -/
def children : Item → List Item
  | .char _ => []
  | .element _ _ children => children

/-- Whether an item is an element of a name. -/
def hasName (name : String) : Item → Bool
  | .char _ => false
  | .element n _ _ => n == name.toList

/-- The value of an attribute. -/
def attribute? (name : String) : Item → Option (List Char)
  | .char _ => none
  | .element _ attributes _ => attributes.lookup name.toList

/-- The character that an item is. -/
def char? : Item → Option Char
  | .char c => some c
  | .element .. => none

/-- The text of an element, if there is nothing but characters in it. -/
def text? (item : Item) : Option (List Char) := item.children.mapM char?

end Item

theorem elementsOf_append (items more : List Item) :
    elementsOf (items ++ more) = elementsOf items ++ elementsOf more := by
  induction items with
  | nil => rfl
  | cons item items ih =>
    rw [List.cons_append, elementsOf, ih, elementsOf, List.append_assoc]

theorem elementsOf_chars (text : List Char) : elementsOf (text.map .char) = [] := by
  induction text with
  | nil => rfl
  | cons c text ih => exact ih

/-- **An element has a text** if it contains its characters and nothing else. -/
theorem text?_eq_some_iff {item : Item} {text : List Char} :
    item.text? = some text ↔ item.children = text.map .char := by
  rw [Item.text?]
  generalize item.children = items
  constructor
  · intro h
    induction items generalizing text with
    | nil =>
      cases h
      rfl
    | cons item items ih =>
      rw [List.mapM_cons] at h
      obtain ⟨c, hc, h⟩ := Option.bind_eq_some_iff.mp h
      obtain ⟨more, hmore, h⟩ := Option.bind_eq_some_iff.mp h
      cases h
      cases item with
      | char d =>
        cases hc
        rw [ih hmore, List.map_cons]
      | element => cases hc
  · rintro rfl
    induction text with
    | nil => rfl
    | cons c text ih =>
      rw [List.map_cons, List.mapM_cons, ih]
      rfl

end Karnaugh.Xml
