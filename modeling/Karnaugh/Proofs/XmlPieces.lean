import Karnaugh.Proofs.XmlReading

/-!
# Documents read piece by piece

A document is written from pieces, and it is read from them: what a piece adds does not
depend on where it stands. Plain text is read as it is (`Xml.read_plain`), a tag starts or
ends an element, and lines of elements read as the items for each of them
(`Xml.ReadsLines.append`).
-/

namespace Karnaugh.Xml

/-! ## Plain characters -/

theorem Kind.normal_of_not_mem_marks {kind : Kind} {c : Char} (h : c ∉ kind.marks) :
    kind.normal c = c := by
  cases kind with
  | content => exact if_neg fun hc => h (by rw [hc]; decide)
  | value mark =>
    simp only [marks, List.mem_cons, not_or] at h
    obtain ⟨-, -, -, htab, hfeed, hreturn, -⟩ := h
    show (if isSpace c then ' ' else c) = c
    by_cases hspace : isSpace c = true
    · have hmem := List.contains_iff_mem.mp hspace
      simp only [List.mem_cons, htab, hfeed, hreturn, or_false, List.not_mem_nil] at hmem
      rw [if_pos hspace, hmem]
    · exact if_neg hspace

theorem Kind.stop_mem_marks (kind : Kind) : kind.stop ∈ kind.marks := by
  cases kind <;> simp [stop, marks]

/-- What is legal and no mark may stand anywhere, but for the end of `]]>`. -/
theorem Kind.admits_of_not_mem_marks {kind : Kind} {c : Char} (hlegal : isLegal c = true)
    (hmark : c ∉ kind.marks) {before rest : List Char}
    (hends : kind = .content → ¬[']', ']', '>'] <:+: before.reverse ++ c :: rest) :
    kind.admits before c = true := by
  have hopen : c ≠ '<' := fun hc => hmark (by cases kind <;> simp [marks, hc])
  cases kind with
  | value mark => simp [admits, hlegal, hopen]
  | content =>
    have hbrackets : ¬(c = '>' ∧ before.take 2 = [']', ']']) := by
      rintro ⟨rfl, hbefore⟩
      have hsplit := List.take_append_drop 2 before
      rw [hbefore] at hsplit
      exact hends rfl ⟨(before.drop 2).reverse, rest, by simp [← congrArg List.reverse hsplit]⟩
    simpa [admits, hlegal, hopen] using Decidable.not_and_iff_not_or_not.mp hbrackets

/-- The characters that do not stand for themselves in some place. -/
def specialChars : List Char := ['<', '&', '"', '\t', '\n', '\r', ']']

/-- Characters that stand for themselves wherever characters may stand. -/
def isSafe (c : Char) : Bool := isLegal c && !specialChars.contains c

theorem Kind.plain_of_safe {kind : Kind} (hmarks : ∀ c ∈ kind.marks, c ∈ specialChars)
    {text : List Char} (h : ∀ c ∈ text, isSafe c = true) : kind.Plain text := by
  have hspecial : ∀ c ∈ text, isLegal c = true ∧ c ∉ specialChars := by
    intro c hc
    obtain ⟨hlegal, hother⟩ := Bool.and_eq_true_iff.mp (h c hc)
    exact ⟨hlegal, by simpa using hother⟩
  refine ⟨fun c hc => ⟨(hspecial c hc).1, fun hmem => (hspecial c hc).2 (hmarks c hmem)⟩, ?_⟩
  rintro - hin
  exact (hspecial ']' (hin.subset List.mem_cons_self)).2 (by decide)

/-- A text of safe characters is plain in an element. -/
theorem plain_content {text : List Char} (h : ∀ c ∈ text, isSafe c = true) :
    Kind.content.Plain text :=
  Kind.plain_of_safe (by simp [Kind.marks, specialChars]) h

/-- A text of safe characters is plain between quotes. -/
theorem plain_value {text : List Char} (h : ∀ c ∈ text, isSafe c = true) :
    (Kind.value '"').Plain text :=
  Kind.plain_of_safe (by simp [Kind.marks, specialChars]) h

/-- What starts with a character is no part of a text without it. -/
theorem infix_of_infix_append {c : Char} {rest before text : List Char} (hc : c ∉ before)
    (h : c :: rest <:+: before ++ text) : c :: rest <:+: text := by
  induction before with
  | nil => exact h
  | cons b before ih =>
    rw [List.mem_cons, not_or] at hc
    rcases List.infix_cons_iff.mp h with h | h
    · exact absurd (List.cons_prefix_cons.mp h).1 hc.1
    · exact ih hc.2 h

/-- Safe characters before a text do not change whether it is plain. -/
theorem plain_safe_append_iff {before text : List Char} (h : ∀ c ∈ before, isSafe c = true) :
    Kind.content.Plain (before ++ text) ↔ Kind.content.Plain text := by
  have hbefore := plain_content h
  constructor
  · rintro ⟨hall, hends⟩
    exact ⟨fun c hc => hall c (List.mem_append_right _ hc),
      fun hkind hin => hends hkind (hin.trans (List.suffix_append before text).isInfix)⟩
  · rintro ⟨hall, hends⟩
    refine ⟨List.forall_mem_append.mpr ⟨hbefore.1, hall⟩, fun hkind hin => hends hkind ?_⟩
    exact infix_of_infix_append (fun hc => absurd (h _ hc) (by decide)) hin

/-- **Plain text is read as it is**, with what has been read before. -/
theorem read_plain (parts : List Part) {spot : Spot} {run : Run} {text : List Char}
    (hreference : run.reference = none) (hreturn : run.before.head? ≠ some '\r')
    (htext : ∀ c ∈ text, isLegal c = true ∧ c ∉ spot.kind.marks)
    (hends : spot.kind = .content → ¬[']', ']', '>'] <:+: run.before.reverse ++ text) :
    State.read ⟨parts, .chars spot run⟩ text
      = some ⟨parts, .chars spot ⟨run.chars ++ text, text.reverse ++ run.before, none⟩⟩ := by
  induction text generalizing run with
  | nil =>
    rw [List.append_nil, ← hreference]
    rfl
  | cons c text ih =>
    obtain ⟨⟨hlegal, hmark⟩, htext⟩ := List.forall_mem_cons.mp htext
    have hne : ∀ {d}, d ∈ spot.kind.marks → c ≠ d := fun hd hc => hmark (hc ▸ hd)
    have hreturns : '\r' ∈ spot.kind.marks := by cases spot <;> simp [Spot.kind, Kind.marks]
    have hand : '&' ∈ spot.kind.marks := by cases spot <;> simp [Spot.kind, Kind.marks]
    have hread : run.read spot.kind c = some ⟨run.chars ++ [c], c :: run.before, none⟩ := by
      rw [Run.read, hreference]
      show (if c = '&' then _ else _) = _
      rw [if_neg (hne hand), Kind.admits_of_not_mem_marks hlegal hmark hends, Bool.not_true,
        if_neg Bool.false_ne_true, if_neg (fun h => hreturn h.2),
        Kind.normal_of_not_mem_marks hmark]
    have hstep : step ⟨parts, .chars spot run⟩ c
        = some ⟨parts, .chars spot ⟨run.chars ++ [c], c :: run.before, none⟩⟩ := by
      rw [step]
      show (if c = spot.kind.stop ∧ run.reference = none then _ else _) = _
      rw [if_neg (fun h => hne spot.kind.stop_mem_marks h.1), hread]
      rfl
    rw [State.read_cons_of hstep, ih rfl]
    · simp
    · exact fun h => hne hreturns (Option.some.inj h)
    · exact htext
    · intro hkind
      rw [List.reverse_cons, List.append_assoc]
      exact hends hkind

/-! ## Tags -/

/-- **Names.** -/
def isName : List Char → Bool
  | [] => false
  | c :: rest => isNameStart c && rest.all isNameChar

theorem exists_of_isName {name : List Char} (h : isName name = true) :
    ∃ c rest, name = c :: rest ∧ isNameStart c = true ∧ rest.all isNameChar = true := by
  cases name with
  | nil => exact absurd h Bool.false_ne_true
  | cons c rest => exact ⟨c, rest, rfl, Bool.and_eq_true_iff.mp h⟩

theorem all_isNameChar_of_isName {name : List Char} (h : isName name = true) :
    name.all isNameChar = true := by
  obtain ⟨c, rest, rfl, hc, hrest⟩ := exists_of_isName h
  exact Bool.and_eq_true_iff.mpr ⟨Bool.or_eq_true_iff.mpr (.inl hc), hrest⟩

/-- An attribute as it is written, with a blank before it. -/
def attributeText (a : List Char × List Char) : List Char :=
  ' ' :: a.1 ++ '=' :: '"' :: a.2 ++ ['"']

namespace Tag

/-- A tag as it is written, without what stands around it. -/
def text (tag : Tag) : List Char := tag.name ++ tag.attributes.flatMap attributeText

/-- **A tag is sound** if it has names as names, each attribute once, and plain values. -/
structure Sound (tag : Tag) : Prop where
  /-- The name is one. -/
  name : isName tag.name = true
  /-- So are those of the attributes. -/
  names : ∀ a ∈ tag.attributes, isName a.1 = true
  /-- These are different. -/
  nodup : (tag.attributes.map Prod.fst).Nodup
  /-- The values are plain. -/
  values : ∀ a ∈ tag.attributes, (Kind.value '"').Plain a.2

end Tag

/-- A name is read to its end. -/
theorem read_nameChars {parts : List Part} {place : List Char → Place}
    (hplace : ∀ name c, isNameChar c = true →
      step ⟨parts, place name⟩ c = some ⟨parts, place (name ++ [c])⟩)
    {rest : List Char} (hrest : rest.all isNameChar = true) (name : List Char) :
    State.read ⟨parts, place name⟩ rest = some ⟨parts, place (name ++ rest)⟩ := by
  induction rest generalizing name with
  | nil =>
    rw [List.append_nil]
    rfl
  | cons c rest ih =>
    obtain ⟨hc, hrest⟩ := Bool.and_eq_true_iff.mp hrest
    rw [State.read_cons_of (hplace name c hc), ih hrest, List.append_assoc,
      List.singleton_append]

/-- Names do not start with what ends them. -/
theorem ne_of_isNameStart {c : Char} (h : isNameStart c = true) :
    isSpace c = false ∧ c ≠ '>' ∧ c ≠ '/' := by
  have hothers : [' ', '\t', '\n', '\r', '>', '/'].any isNameStart = false := by decide
  have hne : ∀ d ∈ [' ', '\t', '\n', '\r', '>', '/'], c ≠ d := by
    rintro d hd rfl
    exact List.any_eq_false.mp hothers c hd h
  refine ⟨Bool.eq_false_iff.mpr fun hspace => ?_, hne _ (by decide), hne _ (by decide)⟩
  exact hne c (List.mem_append_left _ (List.contains_iff_mem.mp hspace)) rfl

/-- **An attribute is read**, with its value, if the tag has none of its name. -/
theorem read_attribute (parts : List Part) {tag : Tag} {name value : List Char}
    (hname : isName name = true) (hnew : tag.has name = false)
    (hvalue : (Kind.value '"').Plain value) :
    State.read ⟨parts, .tag tag false⟩ (attributeText (name, value))
      = some ⟨parts, .tag (tag.add name value) false⟩ := by
  obtain ⟨c, rest, rfl, hc, hrest⟩ := exists_of_isName hname
  obtain ⟨hspace, hclose, hslash⟩ := ne_of_isNameStart hc
  have hstart : step ⟨parts, .tag tag true⟩ c = some ⟨parts, .attributeName tag [c]⟩ := by
    rw [step_tag, stepTag, hspace, if_neg Bool.false_ne_true, if_neg hclose, if_neg hslash,
      if_pos ⟨rfl, hc⟩]
  have hchars : State.read ⟨parts, .attributeName tag [c]⟩ rest
      = some ⟨parts, .attributeName tag (c :: rest)⟩ :=
    read_nameChars (fun name _ h => step_attributeName parts h tag name) hrest [c]
  have hvalue : State.read ⟨parts, .chars (.value tag (c :: rest) '"') .start⟩ value
      = some ⟨parts, .chars (.value tag (c :: rest) '"') ⟨value, value.reverse ++ [], none⟩⟩ :=
    read_plain parts rfl nofun hvalue.1 nofun
  show State.read _ ((' ' :: c :: rest) ++ '=' :: '"' :: value ++ ['"']) = _
  rw [List.append_assoc, List.cons_append, List.cons_append,
    State.read_cons_of (t := ⟨parts, .tag tag true⟩) rfl, State.read_cons_of hstart,
    State.read_append_of hchars, List.cons_append,
    State.read_cons_of (t := ⟨parts, .quote tag (c :: rest)⟩) rfl, List.cons_append,
    State.read_cons_of (step_quote parts hnew), State.read_append_of hvalue]
  rfl

/-- So are attributes, one after the other. -/
theorem read_attributes (parts : List Part) (tag : Tag)
    {attributes : List (List Char × List Char)}
    (h : Tag.Sound { tag with attributes := tag.attributes ++ attributes }) :
    State.read ⟨parts, .tag tag false⟩ (attributes.flatMap attributeText)
      = some ⟨parts, .tag { tag with attributes := tag.attributes ++ attributes } false⟩ := by
  induction attributes generalizing tag with
  | nil =>
    rw [List.append_nil]
    rfl
  | cons a attributes ih =>
    have hmem : a ∈ tag.attributes ++ a :: attributes :=
      List.mem_append_right _ List.mem_cons_self
    have hnew : tag.has a.1 = false := by
      have hnodup := h.nodup
      rw [List.map_append, List.map_cons] at hnodup
      refine List.any_eq_false.mpr fun b hb heq => ?_
      exact (List.nodup_append.mp hnodup).2.2 b.1 (List.mem_map_of_mem hb) a.1
        List.mem_cons_self (beq_iff_eq.mp heq)
    have hassoc : tag.attributes ++ a :: attributes = (tag.add a.1 a.2).attributes ++ attributes :=
      (List.append_assoc _ [a] _).symm
    have hfirst := read_attribute parts (h.names a hmem) hnew (h.values a hmem)
    rw [List.flatMap_cons, State.read_append_of hfirst]
    rw [hassoc] at h ⊢
    exact ih (tag.add a.1 a.2) h

/-- **A tag is read** up to where it ends. -/
theorem read_tag (parts : List Part) {tag : Tag} (h : tag.Sound) {c : Char}
    (hc : isNameChar c = false) (rest : List Char) :
    State.read ⟨parts, .markup⟩ (tag.text ++ c :: rest)
      = State.read ⟨parts, .tag tag false⟩ (c :: rest) := by
  obtain ⟨name, attributes⟩ := tag
  obtain ⟨first, others, rfl, hfirst, hothers⟩ := exists_of_isName h.name
  have hstart : step ⟨parts, .markup⟩ first = some ⟨parts, .tagName [first]⟩ :=
    (if_neg (ne_of_isNameStart hfirst).2.2).trans (if_pos hfirst)
  have hname : State.read ⟨parts, .tagName [first]⟩ others
      = some ⟨parts, .tagName (first :: others)⟩ :=
    read_nameChars (fun name _ h => step_tagName parts h name) hothers [first]
  -- the name ends at a blank, or where the tag ends
  have hends : State.read ⟨parts, .tagName (first :: others)⟩
        (attributes.flatMap attributeText ++ c :: rest)
      = State.read ⟨parts, .tag ⟨first :: others, []⟩ false⟩
        (attributes.flatMap attributeText ++ c :: rest) := by
    cases attributes with
    | nil =>
      show State.read _ (c :: rest) = State.read _ (c :: rest)
      rw [State.read_cons, step_tagName_of_not parts hc, ← State.read_cons]
    | cons a attributes =>
      show State.read _ (' ' :: _) = State.read _ (' ' :: _)
      rw [State.read_cons, step_tagName_of_not parts (by decide), ← State.read_cons]
  show State.read _ (first :: others ++ _ ++ c :: rest) = _
  rw [List.append_assoc, List.cons_append, State.read_cons_of hstart,
    State.read_append_of hname, hends]
  rw [State.read_append_of (read_attributes parts ⟨first :: others, []⟩ h)]
  rfl

/-- A tag in angle brackets, which starts an element. -/
def startTag (tag : Tag) : List Char := '<' :: tag.text ++ ['>']

/-- A tag of an element that has nothing in it. -/
def emptyTag (tag : Tag) : List Char := '<' :: tag.text ++ ['/', '>']

/-- The tag that ends an element. -/
def endTag (name : List Char) : List Char := '<' :: '/' :: name ++ ['>']

section

variable {part : Part} {outer : List Part} {run : Run}

/-- A run of characters ends where markup starts. -/
theorem step_open (h : run.reference = none) :
    step ⟨part :: outer, .chars .element run⟩ '<'
      = some ⟨part.append (run.chars.map .char) :: outer, .markup⟩ :=
  if_pos ⟨rfl, h⟩

/-- **A start tag starts an element.** -/
theorem read_startTag (hrun : run.reference = none) {tag : Tag} (h : tag.Sound) :
    State.read ⟨part :: outer, .chars .element run⟩ (startTag tag)
      = some ⟨⟨tag, []⟩ :: part.append (run.chars.map .char) :: outer, .chars .element .start⟩ := by
  rw [startTag, List.cons_append, State.read_cons_of (step_open hrun),
    read_tag _ h (by decide)]
  rfl

/-- So does the first one of a document. -/
theorem read_startTag_prolog {tag : Tag} (h : tag.Sound) :
    State.read ⟨[], .prolog⟩ (startTag tag) = some ⟨[⟨tag, []⟩], .chars .element .start⟩ := by
  rw [startTag, List.cons_append, State.read_cons_of (t := ⟨[], .markup⟩) rfl,
    read_tag _ h (by decide)]
  rfl

/-- An empty tag is an element with nothing in it. -/
theorem read_emptyTag (hrun : run.reference = none) {tag : Tag} (h : tag.Sound) :
    State.read ⟨part :: outer, .chars .element run⟩ (emptyTag tag)
      = some ⟨part.append (run.chars.map .char ++ [tag.element []]) :: outer,
          .chars .element .start⟩ := by
  rw [emptyTag, List.cons_append, State.read_cons_of (step_open hrun),
    read_tag _ h (by decide), ← Part.append_append]
  rfl

/-- **An end tag ends the innermost element.** -/
theorem read_endTag (hrun : run.reference = none) {name : List Char}
    (hname : isName name = true) (hpart : part.tag.name = name) :
    State.read ⟨part :: outer, .chars .element run⟩ (endTag name)
      = some (.after (part.append (run.chars.map .char)).element outer) := by
  subst hpart
  rw [endTag, List.cons_append, List.cons_append, State.read_cons_of (step_open hrun),
    State.read_cons_of (t := ⟨_, .endName []⟩) rfl, State.read_append_of (read_nameChars
      (fun name _ h => step_endName _ h name) (all_isNameChar_of_isName hname) []), List.nil_append]
  exact State.read_cons_of (step_endName_close outer (part.append (run.chars.map .char))) []

end

/-! ## Elements -/

/-- **Markup reads as an item** wherever it stands in an element. -/
def ReadsItem (markup : List Char) (item : Item) : Prop :=
  ∀ part outer (run : Run), run.reference = none →
    State.read ⟨part :: outer, .chars .element run⟩ markup
      = some ⟨part.append (run.chars.map .char ++ [item]) :: outer, .chars .element .start⟩

theorem readsItem_empty {tag : Tag} (h : tag.Sound) :
    ReadsItem (emptyTag tag) (tag.element []) :=
  fun _ _ _ hrun => read_emptyTag hrun h

/-- **An element with plain text** in it is read with this text. -/
theorem readsItem_text {tag : Tag} (h : tag.Sound) {text : List Char}
    (htext : Kind.content.Plain text) :
    ReadsItem (startTag tag ++ text ++ endTag tag.name) (tag.element (text.map .char)) := by
  intro part outer run hrun
  have hchars : State.read ⟨⟨tag, []⟩ :: part.append (run.chars.map .char) :: outer,
        .chars .element .start⟩ text
      = some ⟨⟨tag, []⟩ :: part.append (run.chars.map .char) :: outer,
        .chars .element ⟨text, text.reverse ++ [], none⟩⟩ :=
    read_plain _ rfl nofun htext.1 htext.2
  rw [List.append_assoc, State.read_append_of (read_startTag hrun h), State.read_append_of hchars,
    read_endTag rfl h.name rfl, State.after, Part.append_append]
  rfl

/-! ## Lines -/

/-- The line feed before a line, not yet an item. -/
def Run.lineStart : Run := ⟨['\n'], ['\n'], none⟩

/-- The items for the start of a line. -/
def lineItems (indent : Nat) : List Item :=
  .char '\n' :: List.replicate indent (.char ' ')

/-- A line with markup. -/
def line (indent : Nat) (markup : List Char) : List Char :=
  List.replicate indent ' ' ++ markup ++ ['\n']

/-- **Lines read as items** in whatever element they stand. The line feed before them is
one of these, the one at their end is not. -/
def ReadsLines (lines : List Char) (items : List Item) : Prop :=
  ∀ part outer, State.read ⟨part :: outer, .chars .element .lineStart⟩ lines
    = some ⟨part.append items :: outer, .chars .element .lineStart⟩

/-- Spaces at the start of a line are read as they are. -/
theorem read_indent (parts : List Part) (indent : Nat) :
    State.read ⟨parts, .chars .element .lineStart⟩ (List.replicate indent ' ')
      = some ⟨parts, .chars .element ⟨'\n' :: List.replicate indent ' ',
          (List.replicate indent ' ').reverse ++ ['\n'], none⟩⟩ := by
  refine read_plain parts rfl (by decide) ?_ ?_
  · intro c hc
    cases List.eq_of_mem_replicate hc
    decide
  · rintro - hin
    have hmem : ']' ∈ ['\n'].reverse ++ List.replicate indent ' ' :=
      hin.subset List.mem_cons_self
    rcases List.mem_append.mp hmem with hmem | hmem
    · exact absurd hmem (by decide)
    · exact absurd (List.eq_of_mem_replicate hmem) (by decide)

namespace ReadsLines

theorem nil : ReadsLines [] [] := fun part outer => by
  rw [Part.append, List.append_nil]
  rfl

/-- **Lines after lines** read as items after items. -/
theorem append {lines more : List Char} {items others : List Item}
    (h : ReadsLines lines items) (hmore : ReadsLines more others) :
    ReadsLines (lines ++ more) (items ++ others) := fun part outer => by
  rw [State.read_append_of (h part outer), hmore, Part.append_append]

theorem flatMap {α : Type} {xs : List α} {lines : α → List Char} {items : α → List Item}
    (h : ∀ x ∈ xs, ReadsLines (lines x) (items x)) :
    ReadsLines (xs.flatMap lines) (xs.flatMap items) := by
  induction xs with
  | nil => exact nil
  | cons x xs ih =>
    obtain ⟨hx, hxs⟩ := List.forall_mem_cons.mp h
    exact hx.append (ih hxs)

/-- A line with markup reads as its item. -/
theorem of_readsItem {markup : List Char} {item : Item} (h : ReadsItem markup item)
    (indent : Nat) : ReadsLines (line indent markup) (lineItems indent ++ [item]) :=
  fun part outer => by
    rw [line, List.append_assoc, State.read_append_of (read_indent _ indent),
      State.read_append_of (h part outer _ rfl)]
    show some (State.mk _ _) = some (State.mk _ _)
    rw [List.map_cons, List.map_replicate]
    rfl

end ReadsLines

/-- **An element with lines** in it is read with their items. -/
theorem readsItem_lines {tag : Tag} (h : tag.Sound) {lines : List Char} {items : List Item}
    (hlines : ReadsLines lines items) (indent : Nat) :
    ReadsItem (startTag tag ++ '\n' :: lines ++ List.replicate indent ' ' ++ endTag tag.name)
      (tag.element (items ++ lineItems indent)) := by
  intro part outer run hrun
  rw [List.append_assoc, List.append_assoc, State.read_append_of (read_startTag hrun h),
    List.cons_append, State.read_cons_of (t := ⟨_, .chars .element .lineStart⟩) rfl,
    State.read_append_of (hlines _ _), State.read_append_of (read_indent _ indent),
    read_endTag rfl h.name rfl]
  rw [Part.append_append, List.map_cons, List.map_replicate, State.after, Part.append_append]
  rfl

/-- **A document with lines** in it is read with their items. -/
theorem read_document {tag : Tag} (h : tag.Sound) {lines : List Char} {items : List Item}
    (hlines : ReadsLines lines items) :
    read (startTag tag ++ '\n' :: lines ++ endTag tag.name ++ ['\n'])
      = some (tag.element (items ++ lineItems 0)) := by
  refine read_eq_some_iff.mpr ⟨[], ?_⟩
  rw [List.append_assoc, List.append_assoc, State.read_append_of (read_startTag_prolog h),
    List.cons_append, State.read_cons_of (t := ⟨_, .chars .element .lineStart⟩) rfl,
    State.read_append_of (hlines _ _), State.read_append_of (read_endTag rfl h.name rfl)]
  rfl

end Karnaugh.Xml
