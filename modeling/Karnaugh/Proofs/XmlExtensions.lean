import Karnaugh.Proofs.XmlReading

/-!
# What was read stays

Whatever text comes after, the elements that have started are elements of the document,
with what they have had (`Xml.State.leadsTo_of_read`). What a step does to them is said
once (`Xml.steps_of_step`).
-/

namespace Karnaugh.Xml

/-! ## What a step does -/

/-- The tag that is being read in a place, after its name. -/
def Place.tag? : Place → Option Tag
  | .chars (.value t _ _) _ => some t
  | .tag t _ => some t
  | .attributeName t _ => some t
  | .equals t _ => some t
  | .quote t _ => some t
  | .slash t => some t
  | _ => none

/-- Whether a place is in an end tag. -/
def Place.isEnd : Place → Bool
  | .endName _ => true
  | .endTag _ => true
  | _ => false

/-- **What a step does** to the elements that have started, with one character. -/
inductive Steps : State → Char → State → Prop
  /-- Before the first element. -/
  | prolog {parts : List Part} {c : Char} : Steps ⟨parts, .prolog⟩ c ⟨parts, .prolog⟩
  /-- To the first element. -/
  | first {parts : List Part} {c : Char} : Steps ⟨parts, .prolog⟩ c ⟨parts, .markup⟩
  /-- Among characters. -/
  | chars {parts : List Part} {spot : Spot} {run next : Run} {c : Char}
    (h : run.read spot.kind c = some next) :
    Steps ⟨parts, .chars spot run⟩ c ⟨parts, .chars spot next⟩
  /-- From characters to markup. -/
  | markup {part : Part} {outer : List Part} {run : Run} {c : Char} :
    Steps ⟨part :: outer, .chars .element run⟩ c
      ⟨part.append (run.chars.map .char) :: outer, .markup⟩
  /-- To the end of a value. -/
  | value {parts : List Part} {tag : Tag} {name : List Char} {mark : Char} {run : Run} {c : Char} :
    Steps ⟨parts, .chars (.value tag name mark) run⟩ c ⟨parts, .tag (tag.add name run.chars) false⟩
  /-- To the name of a tag. -/
  | tagStart {parts : List Part} {name : List Char} {c : Char} :
    Steps ⟨parts, .markup⟩ c ⟨parts, .tagName name⟩
  /-- On in the name of a tag. -/
  | tagName {parts : List Part} {name more : List Char} {c : Char} :
    Steps ⟨parts, .tagName name⟩ c ⟨parts, .tagName more⟩
  /-- From the name of a tag on. -/
  | tagNamed {parts : List Part} {name : List Char} {place : Place} {c : Char} {t : State}
    (hplace : place.tag? = some ⟨name, []⟩) (h : Steps ⟨parts, place⟩ c t) :
    Steps ⟨parts, .tagName name⟩ c t
  /-- On in a tag. -/
  | tag {parts : List Part} {tag : Tag} {place next : Place} {c : Char}
    (hplace : place.tag? = some tag) (hnext : next.tag? = some tag) :
    Steps ⟨parts, place⟩ c ⟨parts, next⟩
  /-- From a tag into its element. -/
  | startTag {parts : List Part} {tag : Tag} {place : Place} {c : Char}
    (hplace : place.tag? = some tag) :
    Steps ⟨parts, place⟩ c ⟨⟨tag, []⟩ :: parts, .chars .element .start⟩
  /-- From a tag past its element. -/
  | emptyTag {parts : List Part} {tag : Tag} {c : Char} :
    Steps ⟨parts, .slash tag⟩ c (.after (Part.element ⟨tag, []⟩) parts)
  /-- To an end tag. -/
  | endStart {parts : List Part} {next : Place} {c : Char} (hnext : next.isEnd = true) :
    Steps ⟨parts, .markup⟩ c ⟨parts, next⟩
  /-- On in an end tag. -/
  | endName {parts : List Part} {place next : Place} {c : Char} (hplace : place.isEnd = true)
    (hnext : next.isEnd = true) : Steps ⟨parts, place⟩ c ⟨parts, next⟩
  /-- From an end tag past its element. -/
  | endTag {part : Part} {outer : List Part} {place : Place} {c : Char}
    (hplace : place.isEnd = true) : Steps ⟨part :: outer, place⟩ c (.after part.element outer)
  /-- After the last element. -/
  | epilog {parts : List Part} {root : Item} {c : Char} :
    Steps ⟨parts, .epilog root⟩ c ⟨parts, .epilog root⟩

/-- What is read in a tag. -/
theorem steps_of_stepTag {parts : List Part} {tag : Tag} {place : Place} {spaced : Bool} {c : Char}
    {t : State} (hplace : place.tag? = some tag) (h : stepTag parts tag spaced c = some t) :
    Steps ⟨parts, place⟩ c t := by
  unfold stepTag at h
  split at h
  · cases h
    exact .tag hplace rfl
  · split at h
    · cases h
      exact .startTag hplace
    · split at h
      · cases h
        exact .tag hplace rfl
      · split at h
        · cases h
          exact .tag hplace rfl
        · cases h

theorem steps_of_stepEquals {parts : List Part} {tag : Tag} {place : Place} {name : List Char}
    {c : Char} {t : State} (hplace : place.tag? = some tag)
    (h : stepEquals parts tag name c = some t) : Steps ⟨parts, place⟩ c t := by
  unfold stepEquals at h
  split at h
  · cases h
    exact .tag hplace rfl
  · split at h
    · cases h
      exact .tag hplace rfl
    · cases h

theorem steps_of_stepEnd {parts : List Part} {place : Place} {name : List Char} {c : Char}
    {t : State} (hplace : place.isEnd = true) (h : stepEnd parts name c = some t) :
    Steps ⟨parts, place⟩ c t := by
  unfold stepEnd at h
  split at h
  · cases h
    exact .endName hplace rfl
  · split at h
    · split at h
      · split at h
        · cases h
          exact .endTag hplace
        · cases h
      · cases h
    · cases h

/-- **Every step** is one of these. -/
theorem steps_of_step {s t : State} {c : Char} (h : step s c = some t) : Steps s c t := by
  obtain ⟨parts, place⟩ := s
  cases place with
  | prolog =>
    simp only [step] at h
    split at h
    · cases h
      exact .first
    · split at h
      · cases h
        exact .prolog
      · cases h
  | chars spot run =>
    simp only [step] at h
    split at h
    · cases spot with
      | element =>
        cases parts with
        | nil => cases h
        | cons part outer =>
          cases h
          exact .markup
      | value tag name mark =>
        cases h
        exact .value
    · obtain ⟨next, hnext, rfl⟩ := Option.map_eq_some_iff.mp h
      exact .chars hnext
  | markup =>
    simp only [step] at h
    split at h
    · cases h
      exact .endStart rfl
    · split at h
      · cases h
        exact .tagStart
      · cases h
  | tagName name =>
    simp only [step] at h
    split at h
    · cases h
      exact .tagName
    · have htag : Steps ⟨parts, .tag ⟨name, []⟩ false⟩ c t := steps_of_stepTag rfl h
      exact .tagNamed rfl htag
  | tag tag spaced => exact steps_of_stepTag rfl h
  | attributeName tag name =>
    simp only [step] at h
    split at h
    · cases h
      exact .tag rfl rfl
    · exact steps_of_stepEquals rfl h
  | equals tag name => exact steps_of_stepEquals rfl h
  | quote tag name =>
    simp only [step] at h
    split at h
    · cases h
      exact .tag rfl rfl
    · split at h
      · cases h
        exact .tag rfl rfl
      · cases h
  | slash tag =>
    simp only [step] at h
    split at h
    · cases h
      exact .emptyTag
    · cases h
  | endName name =>
    simp only [step] at h
    split at h
    · cases h
      exact .endName rfl rfl
    · exact steps_of_stepEnd rfl h
  | endTag name => exact steps_of_stepEnd rfl h
  | epilog root =>
    simp only [step] at h
    split at h
    · cases h
      exact .epilog
    · cases h

/-! ## What was read stays -/

/-- **A document extends what has been read** of it: the innermost part is completed with
more items, and is an item of the next one. -/
inductive Extends (document : Item) : List Part → Prop
  /-- The outermost part is the document. -/
  | root {part : Part} (items : List Item) (h : document = (part.append items).element) :
    Extends document [part]
  /-- Another part is an item of the one around it. -/
  | inner {part around : Part} {outer : List Part} (items : List Item)
    (h : Extends document (around.append [(part.append items).element] :: outer)) :
    Extends document (part :: around :: outer)

namespace Extends

variable {document : Item} {part around : Part} {outer : List Part}

theorem of_append {items : List Item} (h : Extends document (part.append items :: outer)) :
    Extends document (part :: outer) := by
  cases h with
  | root more h => exact .root (items ++ more) (Part.append_append .. ▸ h)
  | inner more h => exact .inner (items ++ more) (Part.append_append .. ▸ h)

/-- It extends the parts around the innermost one. -/
theorem of_cons (h : Extends document (part :: around :: outer)) :
    Extends document (around :: outer) := by
  cases h with
  | inner _ h => exact h.of_append

/-- An element in the outermost one is completed, and others may follow. -/
theorem exists_eq (h : Extends document [part, around]) :
    ∃ items others,
      document = (around.append ((part.append items).element :: others)).element := by
  cases h with
  | inner items h =>
    cases h with
    | root others h => exact ⟨items, others, h.trans (by rw [Part.append_append]; rfl)⟩

end Extends

/-- **A document has the innermost part as it is**, with no more items in it. -/
def Ended (document : Item) : List Part → Prop
  | [] => False
  | [part] => document = part.element
  | part :: around :: outer => Extends document (around.append [part.element] :: outer)

theorem Ended.extends {document : Item} {part : Part} {outer : List Part} {items : List Item}
    (h : Ended document (part.append items :: outer)) : Extends document (part :: outer) := by
  cases outer with
  | nil => exact .root items h
  | cons around outer => exact .inner items h

/-- A tag with more attributes. -/
def Tag.addAll (tag : Tag) (more : List (List Char × List Char)) : Tag :=
  { tag with attributes := tag.attributes ++ more }

theorem Tag.addAll_add (tag : Tag) (name value : List Char) (more : List (List Char × List Char)) :
    (tag.add name value).addAll more = tag.addAll ((name, value) :: more) := by
  rw [addAll, add, List.append_assoc]
  rfl

/-- A document has a tag, perhaps with more attributes. -/
def HasTag (document : Item) (tag : Tag) (parts : List Part) : Prop :=
  ∃ more, Extends document (⟨tag.addAll more, []⟩ :: parts)

/-- A document has an element next. -/
def HasNext (document : Item) (parts : List Part) : Prop :=
  ∃ tag, Extends document (⟨tag, []⟩ :: parts)

/-- **What a document has to have** that is read from a state. -/
def State.LeadsTo (s : State) (document : Item) : Prop :=
  match s.place with
  | .prolog => True
  | .chars .element _ => Extends document s.parts
  | .chars (.value tag _ _) _ => HasTag document tag s.parts
  | .markup => Ended document s.parts ∨ HasNext document s.parts
  | .tagName _ => HasNext document s.parts
  | .tag tag _ => HasTag document tag s.parts
  | .attributeName tag _ => HasTag document tag s.parts
  | .equals tag _ => HasTag document tag s.parts
  | .quote tag _ => HasTag document tag s.parts
  | .slash tag => HasTag document tag s.parts
  | .endName _ => Ended document s.parts
  | .endTag _ => Ended document s.parts
  | .epilog root => document = root

section

variable {document : Item} {parts : List Part} {tag : Tag} {name : List Char} {c : Char}
  {s t : State}

/-- A document with a tag as it is has this tag. -/
theorem HasTag.of_extends (h : Extends document (⟨tag, []⟩ :: parts)) :
    HasTag document tag parts :=
  ⟨[], by rwa [Tag.addAll, List.append_nil]⟩

theorem HasTag.hasNext (h : HasTag document tag parts) : HasNext document parts := by
  obtain ⟨more, h⟩ := h
  exact ⟨_, h⟩

/-- A document has the attributes that a tag has had. -/
theorem HasTag.of_add {value : List Char} (h : HasTag document (tag.add name value) parts) :
    HasTag document tag parts := by
  obtain ⟨more, h⟩ := h
  exact ⟨(name, value) :: more, Tag.addAll_add .. ▸ h⟩

/-- **After an element**, a document has it as it was. -/
theorem ended_of_after {part : Part} {outer : List Part}
    (h : (State.after part.element outer).LeadsTo document) : Ended document (part :: outer) := by
  cases outer with
  | nil => exact h
  | cons around outer => exact h

/-- In a tag, a document has to have it. -/
theorem leadsTo_iff_of_tag? {place : Place} (h : place.tag? = some tag) :
    State.LeadsTo ⟨parts, place⟩ document ↔ HasTag document tag parts := by
  cases place with
  | chars spot run =>
    cases spot with
    | element => cases h
    | value tag name mark =>
      cases h
      exact .rfl
  | tag | attributeName | equals | quote | slash =>
    cases h
    exact .rfl
  | _ => cases h

/-- In an end tag, a document has to have the element as it is. -/
theorem leadsTo_iff_of_isEnd {place : Place} (h : place.isEnd = true) :
    State.LeadsTo ⟨parts, place⟩ document ↔ Ended document parts := by
  cases place with
  | endName | endTag => exact .rfl
  | _ => cases h

/-- **Step by step**, a document has what it has to have. -/
theorem Steps.leadsTo (hstep : Steps s c t) (h : t.LeadsTo document) : s.LeadsTo document := by
  induction hstep with
  | prolog | first => trivial
  | @chars _ spot _ _ _ _ => cases spot <;> exact h
  | markup =>
    rcases h with h | ⟨tag, h⟩
    · exact h.extends
    · exact h.of_cons.of_append
  | value => exact h.of_add
  | tagStart => exact .inr h
  | tagName => exact h
  | tagNamed hplace _ ih => exact ((leadsTo_iff_of_tag? hplace).mp (ih h)).hasNext
  | tag hplace hnext =>
    exact (leadsTo_iff_of_tag? hplace).mpr ((leadsTo_iff_of_tag? hnext).mp h)
  | startTag hplace => exact (leadsTo_iff_of_tag? hplace).mpr (.of_extends h)
  | @emptyTag parts tag _ =>
    have hended : Ended document (Part.append ⟨tag, []⟩ [] :: parts) := ended_of_after h
    exact .of_extends hended.extends
  | endStart hnext => exact .inl ((leadsTo_iff_of_isEnd hnext).mp h)
  | endName hplace hnext =>
    exact (leadsTo_iff_of_isEnd hplace).mpr ((leadsTo_iff_of_isEnd hnext).mp h)
  | endTag hplace => exact (leadsTo_iff_of_isEnd hplace).mpr (ended_of_after h)
  | epilog => exact h

/-- **What was read stays**: a document has what it has to have, whatever is read on. -/
theorem State.leadsTo_of_read {text : List Char} (hread : s.read text = some t)
    (h : t.LeadsTo document) : s.LeadsTo document := by
  induction text generalizing s with
  | nil =>
    cases hread
    exact h
  | cons c text ih =>
    obtain ⟨next, hstep, hread⟩ := State.read_cons_eq_some_iff.mp hread
    exact (steps_of_step hstep).leadsTo (ih hread)

end

end Karnaugh.Xml
