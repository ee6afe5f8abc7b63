import Karnaugh.Proofs.XmlExtensions
import Karnaugh.Proofs.XmlStrings

/-!
# How many characters a document has

Every character of a document was read from one of its text at least, so a document has no
more characters than its text (`Xml.State.weight_read_le`), and markup makes none.
-/

namespace Karnaugh.Xml

/-! ## How many characters there are -/

mutual

/-- **The number of characters** in an item. -/
def Item.weight : Item → Nat
  | .char _ => 1
  | .element _ _ children => weightOf children

/-- The number of characters in items. -/
def weightOf : List Item → Nat
  | [] => 0
  | item :: rest => item.weight + weightOf rest

end

@[simp]
theorem weightOf_append (items more : List Item) :
    weightOf (items ++ more) = weightOf items + weightOf more := by
  induction items with
  | nil => exact (Nat.zero_add _).symm
  | cons item items ih => rw [List.cons_append, weightOf, ih, weightOf, Nat.add_assoc]

@[simp]
theorem weightOf_chars (text : List Char) : weightOf (text.map .char) = text.length := by
  induction text with
  | nil => rfl
  | cons c text ih =>
    rw [List.map_cons, weightOf, ih, Item.weight, List.length_cons, Nat.add_comm]

@[simp]
theorem weightOf_singleton (item : Item) : weightOf [item] = item.weight := rfl

@[simp]
theorem Part.weight_element (part : Part) : part.element.weight = weightOf part.children := by
  rw [Part.element, Tag.element, Item.weight]

mutual

/-- An element of an item has no more characters than the item. -/
theorem Item.weight_le_of_mem_elements (item : Item) {e : Item} (h : e ∈ item.elements) :
    e.weight ≤ item.weight := by
  cases item with
  | char c =>
    rw [Item.elements] at h
    exact absurd h List.not_mem_nil
  | element name attributes children =>
    rw [Item.elements] at h
    rcases List.mem_cons.mp h with rfl | h
    · exact Nat.le_refl _
    · rw [Item.weight]
      exact weight_le_of_mem_elementsOf children h

/-- Nor has one among items. -/
theorem weight_le_of_mem_elementsOf (items : List Item) {e : Item} (h : e ∈ elementsOf items) :
    e.weight ≤ weightOf items := by
  cases items with
  | nil =>
    rw [elementsOf] at h
    exact absurd h List.not_mem_nil
  | cons item rest =>
    rw [elementsOf] at h
    rw [weightOf]
    rcases List.mem_append.mp h with h | h
    · exact Nat.le_add_right_of_le (item.weight_le_of_mem_elements h)
    · exact Nat.le_add_left_of_le (weight_le_of_mem_elementsOf rest h)

end

theorem length_le_of_text? {item : Item} {text : List Char} (h : item.text? = some text) :
    text.length ≤ item.weight := by
  have hchildren := text?_eq_some_iff.mp h
  cases item with
  | char c =>
    rw [List.map_eq_nil_iff.mp hchildren.symm]
    exact Nat.zero_le _
  | element name attributes children =>
    have hweight := weightOf_chars text
    rw [← hchildren] at hweight
    exact Nat.le_of_eq hweight.symm

/-- The number of characters in parts. -/
def partsWeight : List Part → Nat
  | [] => 0
  | part :: outer => weightOf part.children + partsWeight outer

/-- The number of characters in a place. -/
def Place.weight : Place → Nat
  | .chars .element run => run.chars.length
  | .epilog root => root.weight
  | _ => 0

/-- **The number of characters that have been read.** -/
def State.weight (s : State) : Nat := partsWeight s.parts + s.place.weight

theorem Place.weight_of_tag? {place : Place} {t : Tag} (h : place.tag? = some t) :
    place.weight = 0 := by
  cases place with
  | chars spot run =>
    cases spot with
    | element => cases h
    | value => rfl
  | epilog => cases h
  | _ => rfl

theorem Place.weight_of_isEnd {place : Place} (h : place.isEnd = true) : place.weight = 0 := by
  cases place with
  | endName | endTag => rfl
  | _ => cases h

theorem partsWeight_append (part : Part) (items : List Item) (outer : List Part) :
    partsWeight (part.append items :: outer) = partsWeight (part :: outer) + weightOf items := by
  rw [partsWeight, partsWeight, Part.append, weightOf_append]
  exact Nat.add_right_comm _ _ _

/-- Where an element ends, nothing is lost. -/
theorem State.weight_after (part : Part) (outer : List Part) :
    (State.after part.element outer).weight = partsWeight (part :: outer) := by
  cases outer with
  | nil =>
    show 0 + part.element.weight = weightOf part.children + 0
    rw [Part.weight_element, Nat.zero_add, Nat.add_zero]
  | cons around outer =>
    show partsWeight (around.append [part.element] :: outer) + 0 = _
    rw [partsWeight_append, weightOf_singleton, Part.weight_element, Nat.add_zero, Nat.add_comm]
    rfl

/-- A run takes one character at most, and no `<`. -/
theorem Run.of_read {kind : Kind} {run next : Run} {c : Char} (h : run.read kind c = some next) :
    c ≠ '<' ∧ next.chars.length ≤ run.chars.length + 1 := by
  obtain ⟨chars, before, reference⟩ := run
  cases reference with
  | none =>
    rcases Run.read_cases rfl h with ⟨rfl, rfl⟩ | ⟨-, hadmits, rfl | rfl⟩
    · exact ⟨by decide, Nat.le_succ _⟩
    · exact ⟨(Kind.of_admits hadmits).2, Nat.le_succ _⟩
    · exact ⟨(Kind.of_admits hadmits).2, by simp⟩
  | some name =>
    simp only [Run.read] at h
    split at h
    next hc =>
      obtain ⟨x, -, rfl⟩ := Option.map_eq_some_iff.mp h
      exact ⟨hc ▸ by decide, by simp⟩
    next =>
      split at h
      next hc =>
        cases h
        refine ⟨?_, Nat.le_succ _⟩
        rintro rfl
        exact absurd hc (by decide)
      next => cases h

/-- **A step reads one character at most**, and none where markup starts. -/
theorem Steps.weight_le {s t : State} {c : Char} (h : Steps s c t) :
    t.weight ≤ s.weight
      ∨ (∃ run, s.place = .chars .element run) ∧ (∃ run, t.place = .chars .element run) ∧ c ≠ '<'
        ∧ t.weight ≤ s.weight + 1 := by
  induction h with
  | prolog | first | tagStart | tagName | epilog | value => exact .inl (Nat.le_refl _)
  | @chars parts spot run next c hread =>
    cases spot with
    | value => exact .inl (Nat.le_refl _)
    | element =>
      obtain ⟨hc, hlength⟩ := Run.of_read hread
      exact .inr ⟨⟨run, rfl⟩, ⟨next, rfl⟩, hc, Nat.add_le_add_left hlength _⟩
  | @markup part outer run c =>
    refine .inl (Nat.le_of_eq ?_)
    show partsWeight (part.append (run.chars.map .char) :: outer) + 0 = _
    rw [partsWeight_append, weightOf_chars]
    rfl
  | @tagNamed parts name place c t hplace h ih =>
    have hweight := Place.weight_of_tag? hplace
    rcases ih with hle | ⟨⟨run, rfl⟩, -⟩
    · refine .inl (Nat.le_trans hle (Nat.le_of_eq ?_))
      show partsWeight parts + place.weight = partsWeight parts + 0
      rw [hweight]
    · cases hplace
  | tag hplace hnext =>
    rw [State.weight, State.weight, Place.weight_of_tag? hplace, Place.weight_of_tag? hnext]
    exact .inl (Nat.le_refl _)
  | @startTag parts tag place c hplace =>
    refine .inl ?_
    rw [State.weight, State.weight, Place.weight_of_tag? hplace]
    show 0 + partsWeight parts + 0 ≤ partsWeight parts + 0
    omega
  | @emptyTag parts tag c =>
    rw [State.weight_after]
    refine .inl ?_
    show 0 + partsWeight parts ≤ partsWeight parts + 0
    omega
  | endStart hnext =>
    rw [State.weight, State.weight, Place.weight_of_isEnd hnext]
    exact .inl (Nat.le_refl _)
  | endName hplace hnext =>
    rw [State.weight, State.weight, Place.weight_of_isEnd hplace, Place.weight_of_isEnd hnext]
    exact .inl (Nat.le_refl _)
  | endTag hplace =>
    rw [State.weight_after]
    exact .inl (Nat.le_add_right _ _)

/-- **A text makes as many characters** as it has, at most. -/
theorem State.weight_read_le {s t : State} {text : List Char} (h : s.read text = some t) :
    t.weight ≤ s.weight + text.length := by
  induction text generalizing s with
  | nil =>
    cases h
    exact Nat.le_refl _
  | cons c text ih =>
    obtain ⟨next, hstep, hread⟩ := State.read_cons_eq_some_iff.mp h
    have hnext := ih hread
    rw [List.length_cons]
    rcases (steps_of_step hstep).weight_le with hle | ⟨-, -, -, hle⟩ <;> omega

/-- The first character of a tag is none of the document. -/
theorem weight_read_markup {parts : List Part} {t : State} {text : List Char} (htext : text ≠ [])
    (h : State.read ⟨parts, .markup⟩ text = some t) :
    t.weight + 1 ≤ partsWeight parts + text.length := by
  cases text with
  | nil => exact absurd rfl htext
  | cons c text =>
    obtain ⟨next, hstep, hread⟩ := State.read_cons_eq_some_iff.mp h
    have hnext := State.weight_read_le hread
    rw [List.length_cons]
    rcases (steps_of_step hstep).weight_le with hle | ⟨⟨run, hplace⟩, -⟩
    · have hle : next.weight ≤ partsWeight parts := hle
      omega
    · cases hplace

/-- `<` starts markup, unless it ends a value. -/
theorem step_open_cases {s t : State} (h : step s '<' = some t) :
    t.weight ≤ s.weight ∧ (t.place = .markup ∨ ∃ tag, t.place = .tag tag false) := by
  refine ⟨?_, ?_⟩
  · rcases (steps_of_step h).weight_le with hle | ⟨-, -, hne, -⟩
    · exact hle
    · exact absurd rfl hne
  · obtain ⟨parts, place⟩ := s
    cases place with
    | prolog =>
      cases h
      exact .inl rfl
    | chars spot run =>
      simp only [step] at h
      split at h
      · cases spot with
        | element =>
          cases parts with
          | nil => cases h
          | cons part outer =>
            cases h
            exact .inl rfl
        | value tag name mark =>
          cases h
          exact .inr ⟨_, rfl⟩
      · obtain ⟨next, hnext, -⟩ := Option.map_eq_some_iff.mp h
        exact absurd rfl (Run.of_read hnext).1
    | tag tag spaced => cases spaced <;> cases h
    | _ => cases h

/-- Where an end tag ends, nothing is lost. -/
theorem weight_stepEnd {parts : List Part} {name : List Char} {t : State}
    (h : stepEnd parts name '>' = some t) : t.weight = partsWeight parts := by
  cases parts with
  | nil => cases h
  | cons part outer =>
    have hclose : (if part.tag.name = name then some (State.after part.element outer) else none)
        = some t := h
    split at hclose
    · cases hclose
      exact State.weight_after part outer
    · cases hclose

/-- **An end tag makes no characters.** -/
theorem weight_read_endTag {s t : State} {name : List Char} (hname : isName name = true)
    (h : s.read (endTag name) = some t) : t.weight ≤ s.weight := by
  rw [endTag, List.cons_append] at h
  obtain ⟨⟨parts, place⟩, hopen, h⟩ := State.read_cons_eq_some_iff.mp h
  obtain ⟨hle, rfl | ⟨tag, rfl⟩⟩ := step_open_cases hopen
  · rw [List.cons_append, State.read_cons_of (t := ⟨parts, .endName []⟩) rfl,
      State.read_append_of (read_nameChars (fun name _ h => step_endName parts h name)
        (all_isNameChar_of_isName hname) [])] at h
    obtain ⟨next, hclose, h⟩ := State.read_cons_eq_some_iff.mp h
    cases h
    rw [weight_stepEnd hclose]
    exact hle
  · -- a slash in a tag ends it, and no name comes
    obtain ⟨c, rest, rfl, hc, -⟩ := exists_of_isName hname
    have hslash : step ⟨parts, .slash tag⟩ c = none := if_neg (ne_of_isNameStart hc).2.1
    rw [List.cons_append, State.read_cons_of (t := ⟨parts, .slash tag⟩) rfl, List.cons_append,
      State.read_cons, hslash] at h
    cases h

/-- The line end after a document is none of its characters. -/
theorem weight_le_of_read_lineEnd {s : State} {outer : List Part} {root : Item}
    (h : s.read ['\n'] = some ⟨outer, .epilog root⟩) : root.weight ≤ s.weight := by
  obtain ⟨next, hstep, h⟩ := State.read_cons_eq_some_iff.mp h
  cases h
  rcases (steps_of_step hstep).weight_le with hle | ⟨-, ⟨run, hplace⟩, -⟩
  · exact Nat.le_trans (Nat.le_add_left _ _) hle
  · cases hplace

/-- **The end of a picture makes one character at most**, between two end tags. -/
theorem weight_le_of_read_endTags {s : State} {first last : List Char} {outer : List Part}
    {root : Item} (hfirst : isName first = true) (hlast : isName last = true)
    (h : s.read (endTag first ++ '\n' :: endTag last ++ ['\n']) = some ⟨outer, .epilog root⟩) :
    root.weight ≤ s.weight + 1 := by
  rw [List.append_assoc, List.cons_append] at h
  obtain ⟨ended, hended, h⟩ := State.read_append_eq_some_iff.mp h
  obtain ⟨next, hnext, h⟩ := State.read_cons_eq_some_iff.mp h
  obtain ⟨whole, hwhole, h⟩ := State.read_append_eq_some_iff.mp h
  have hroot := weight_le_of_read_lineEnd h
  have hlast := weight_read_endTag hlast hwhole
  have hfirst := weight_read_endTag hfirst hended
  rcases (steps_of_step hnext).weight_le with hle | ⟨-, -, -, hle⟩ <;> omega

end Karnaugh.Xml
