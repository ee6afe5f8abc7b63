import Karnaugh.Proofs.Labels
import Karnaugh.Proofs.Pictures
import Karnaugh.Proofs.Sheets
import Karnaugh.Proofs.XmlWeights

/-!
# Strings in pictures

Nothing keeps a string of a picture from having characters that mean something to a reader:
a color may end its attribute, a term its element, an expression may start a reference or
even a group of its own. The reader then refuses the picture, or reads something else in it.

It could still have read what it was supposed to, by chance or by design of the string.
It never does (`Sheet.picture_shows_iff`). The attribute and the elements that a string was to
be in have started before it, and are in the document whatever comes. What is read in them
ends with the string or before, and is the string only if it is plain. Only an expression
might be found elsewhere, as it has to be the last text and not the one that was started for
it. But a copy of it in a text within itself has fewer characters than it has.
-/

namespace Karnaugh

open Text Xml

namespace Svg

/-! ## What a document shows -/

section

variable {loops : List Loop} {loop : Loop} {expression : String}

/-- An element of the name of groups is one of them. -/
theorem exists_groups_cons {group : Item} (h : group.hasName "g" = true) (others : List Item) :
    ∃ more, groups (group :: others) = group :: more := by
  cases group with
  | char => cases h
  | element => exact ⟨_, List.filter_cons_of_pos h⟩

/-- **The next group** of a document shows the next loop. -/
theorem Shows.showsLoop {width height : Float} {done : List Loop} {items others : List Item}
    {group : Item} (h : Shows (done ++ loop :: loops) expression
      ((pictureTag width height).element (items ++ group :: others)))
    (hitems : (Svg.groups items).length = done.length) (hgroup : group.hasName "g" = true) :
    ShowsLoop loop group := by
  obtain ⟨more, hmore⟩ := exists_groups_cons hgroup others
  have hall := h.groups
  rw [groups_picture, groups_append, hmore] at hall
  have hrest := List.forall₂_drop_append _ _ _ hall
  rw [hitems, List.drop_left] at hrest
  exact (List.forall₂_cons.mp hrest).1

/-- The title of a group is the first of its name in it. -/
theorem ShowsLoop.text?_title {tag : Tag} {indent : Nat} {title : Item} {items : List Item}
    (h : ShowsLoop loop (tag.element (lineItems indent ++ title :: items)))
    (htitle : title.hasName "title" = true) : title.text? = some loop.term.toList := by
  obtain ⟨found, hfound, htext⟩ := h.title
  have hfirst : (lineItems indent ++ title :: items).filter (·.hasName "title") = [found] :=
    hfound
  rw [List.filter_append, filter_lineItems, List.nil_append, List.filter_cons_of_pos htitle]
    at hfirst
  rwa [(List.cons.inj hfirst).1]

/-- **The last text** of a document is not before one that it has. -/
theorem mem_elementsOf_of_last {tag : Tag} {items others : List Item} {item label : Item}
    (hlast : ((elementsOf [tag.element (items ++ item :: others)]).filter
      (·.hasName "text")).getLast? = some label) (hitem : item.hasName "text" = true) :
    label ∈ elementsOf (item :: others) := by
  obtain ⟨name, attributes, children, rfl⟩ : ∃ name attributes children,
      item = .element name attributes children := by
    cases item with
    | char => cases hitem
    | element => exact ⟨_, _, _, rfl⟩
  have hsplit : elementsOf [tag.element (items ++ .element name attributes children :: others)]
      = tag.element (items ++ .element name attributes children :: others) :: elementsOf items
        ++ elementsOf (.element name attributes children :: others) := by
    show _ :: elementsOf _ ++ [] = _
    rw [List.append_nil, elementsOf_append]
    rfl
  rw [hsplit, List.filter_append, List.getLast?_append] at hlast
  have hmem : label ∈ (elementsOf (.element name attributes children :: others)).filter
      (·.hasName "text") := by
    cases hcases : ((elementsOf (.element name attributes children :: others)).filter
        (·.hasName "text")).getLast? with
    | none =>
      have hnone := List.getLast?_eq_none_iff.mp hcases
      have hfirst := List.filter_eq_nil_iff.mp hnone _ List.mem_cons_self
      exact absurd hitem hfirst
    | some found =>
      rw [hcases] at hlast
      cases hlast
      exact List.mem_of_getLast? hcases
  exact (List.mem_filter.mp hmem).1

end

/-! ## Colors and terms -/

section

variable {strokeWidth : Float} {loop : Loop} {part : Xml.Part} {rest : List Char}
  {outer : List Xml.Part} {document : Item}

/-- A color stands between what starts the attribute and a quote. -/
theorem exists_toList_loopGroup_color (strokeWidth : Float) (loop : Loop) :
    ∃ rest, (loopGroup strokeWidth loop).toList
      = "  <g stroke=\"".toList ++ (loop.color.toList ++ '"' :: rest) := by
  unfold loopGroup
  simp only [String.toList_append, List.append_assoc, List.cons_append, List.nil_append,
    String.reduceToList]
  exact ⟨_, rfl⟩

/-- A term stands between what starts the title and markup. -/
theorem exists_toList_loopGroup_term (strokeWidth : Float) (loop : Loop) :
    ∃ rest, (loopGroup strokeWidth loop).toList
      = List.replicate 2 ' ' ++ (startTag (groupTag strokeWidth loop) ++ '\n' ::
        (List.replicate 4 ' ' ++ (startTag titleTag ++ (loop.term.toList ++ '<' :: rest)))) := by
  rw [toList_loopGroup]
  simp only [line, endTag, List.append_assoc, List.cons_append]
  exact ⟨_, rfl⟩

/-- **A color is plain** if the group that comes next shows its loop. -/
theorem plain_color (hread : State.read ⟨[part], .chars .element .lineStart⟩
      ((loopGroup strokeWidth loop).toList ++ rest) = some ⟨outer, .epilog document⟩)
    (hshows : ∀ group others,
      document = (part.append (lineItems 2 ++ group :: others)).element →
        group.hasName "g" = true → ShowsLoop loop group) :
    (Kind.value '"').Plain loop.color.toList := by
  obtain ⟨tail, htext⟩ := exists_toList_loopGroup_color strokeWidth loop
  have hstart : State.read ⟨[part], .chars .element .lineStart⟩ "  <g stroke=\"".toList
      = some ⟨[part.append (lineItems 2)],
        .chars (.value ⟨['g'], []⟩ "stroke".toList '"') .start⟩ := rfl
  rw [htext, List.append_assoc, State.read_append_of hstart, List.append_assoc,
    List.cons_append] at hread
  obtain ⟨chars, before, after, hplain, hafter, -⟩ := exists_of_read_string (.inr rfl) hread
  apply hplain
  -- the attribute of the group is what was read
  rw [State.read_cons_of (t := ⟨[part.append (lineItems 2)],
    .tag (Tag.add ⟨['g'], []⟩ "stroke".toList chars) false⟩) rfl] at hafter
  obtain ⟨more, hextends⟩ : HasTag document _ _ := State.leadsTo_of_read hafter rfl
  obtain ⟨items, others, hdocument⟩ := hextends.exists_eq
  rw [Xml.Part.append_append] at hdocument
  have hlookup : (("stroke".toList, chars) :: more).lookup "stroke".toList
      = some loop.color.toList := (hshows _ others hdocument rfl).color
  exact Option.some.inj (List.lookup_cons_self.symm.trans hlookup)

/-- **So is a term**, if the color is. -/
theorem plain_term (hcolor : (Kind.value '"').Plain loop.color.toList)
    (hread : State.read ⟨[part], .chars .element .lineStart⟩
      ((loopGroup strokeWidth loop).toList ++ rest) = some ⟨outer, .epilog document⟩)
    (hshows : ∀ group others,
      document = (part.append (lineItems 2 ++ group :: others)).element →
        group.hasName "g" = true → ShowsLoop loop group) :
    Kind.content.Plain loop.term.toList := by
  obtain ⟨tail, htext⟩ := exists_toList_loopGroup_term strokeWidth loop
  rw [htext, List.append_assoc, State.read_append_of (read_indent _ 2), List.append_assoc,
    State.read_append_of (read_startTag rfl (sound_groupTag strokeWidth hcolor)),
    List.cons_append, State.read_cons_of (t := ⟨_, .chars .element .lineStart⟩) rfl,
    List.append_assoc, State.read_append_of (read_indent _ 4), List.append_assoc,
    State.read_append_of (read_startTag rfl sound_titleTag), List.append_assoc,
    List.cons_append] at hread
  obtain ⟨chars, before, after, hplain, hafter, -⟩ := exists_of_read_string (.inl rfl) hread
  apply hplain
  -- the group has a title, which has the term
  have htitle : ∀ title, Extends document [(Xml.Part.mk (groupTag strokeWidth loop)
        (lineItems 4)).append [title], part.append (lineItems 2)] →
      title.hasName "title" = true → title.text? = some loop.term.toList := by
    intro title hextends hname
    obtain ⟨items, others, hdocument⟩ := hextends.exists_eq
    rw [Xml.Part.append_append] at hdocument
    have hgroup := hshows _ others hdocument rfl
    rw [Xml.Part.append_append] at hgroup
    exact hgroup.text?_title hname
  rw [State.read_cons_of (c := Spot.element.kind.stop) (step_open rfl)] at hafter
  obtain hended | ⟨tag, hnext⟩ : Ended document _ ∨ HasNext document _ :=
    State.leadsTo_of_read hafter rfl
  · have htext := htitle _ hended rfl
    exact Option.some.inj ((text?_chars titleTag chars).symm.trans htext)
  · -- an element in the title is no character of the term
    cases hnext with
    | inner items h =>
      cases h with
      | inner more h =>
        have hchildren := text?_eq_some_iff.mp (htitle _ h rfl)
        have hmem : (Xml.Part.append ⟨tag, []⟩ items).element ∈ loop.term.toList.map Item.char := by
          rw [← hchildren]
          exact List.mem_append_left _ (List.mem_append_right _ List.mem_cons_self)
        obtain ⟨c, -, hc⟩ := List.mem_map.mp hmem
        cases hc

end

/-! ## The expression -/

section

variable (settings : Settings) (grid : Grid)

/-- The expression stands between what starts its text and what ends it. -/
theorem toList_expressionLine (expression : String) :
    (expressionLine settings grid expression).toList
      = line 2 (startTag (expressionTag settings grid) ++ ("F = " ++ expression).toList
        ++ endTag "text".toList) :=
  toList_label _ _ _ _

variable {settings grid}

theorem sound_expressionTag : (expressionTag settings grid).Sound := sound_labelTag _ _ _

variable {expression : String} {tag : Tag} {items : List Item}
  {outer : List Xml.Part} {document : Item}

/-- What ends a picture, after the text of the expression. -/
def ending : List Char := endTag "text".toList ++ '\n' :: endTag "svg".toList ++ ['\n']

/-- **The ending ends the text** and the document. -/
theorem read_ending (htag : tag.name = "svg".toList) (chars before : List Char) :
    State.read ⟨[⟨expressionTag settings grid, []⟩, ⟨tag, items⟩],
        .chars .element ⟨chars, before, none⟩⟩ ending
      = some ⟨[], .epilog (tag.element
          (items ++ [(expressionTag settings grid).element (chars.map .char), .char '\n']))⟩ := by
  have htext : State.read ⟨[⟨expressionTag settings grid, []⟩, ⟨tag, items⟩],
        .chars .element ⟨chars, before, none⟩⟩ (endTag "text".toList)
      = some ⟨[⟨tag, items ++ [(expressionTag settings grid).element (chars.map .char)]⟩],
          .chars .element .start⟩ := read_endTag rfl (by decide) rfl
  have hpicture : ∀ items, State.read ⟨[⟨tag, items⟩], .chars .element .lineStart⟩
        (endTag "svg".toList)
      = some ⟨[], .epilog (tag.element (items ++ [.char '\n']))⟩ :=
    fun items => read_endTag rfl (by decide) htag
  rw [ending, List.append_assoc, State.read_append_of htext, List.cons_append,
    State.read_cons_of (t := ⟨_, .chars .element .lineStart⟩) rfl,
    State.read_append_of (hpicture _), List.append_assoc]
  rfl

/-- **The line of the expression** is read up to where the expression comes. -/
theorem read_expressionLine (tag : Tag) (items : List Item) (expression : String) :
    State.read ⟨[⟨tag, items⟩], .chars .element .lineStart⟩
        ((expressionLine settings grid expression).toList ++ (endTag "svg".toList ++ ['\n']))
      = State.read ⟨[⟨expressionTag settings grid, []⟩, ⟨tag, items ++ lineItems 2⟩],
          .chars .element .start⟩ (("F = " ++ expression).toList ++ ending) := by
  have hline : (expressionLine settings grid expression).toList ++ (endTag "svg".toList ++ ['\n'])
      = List.replicate 2 ' ' ++ (startTag (expressionTag settings grid)
        ++ (("F = " ++ expression).toList ++ ending)) := by
    rw [toList_expressionLine, line, ending]
    simp only [List.append_assoc, List.cons_append, List.nil_append]
  rw [hline, State.read_append_of (read_indent _ 2),
    State.read_append_of (read_startTag rfl sound_expressionTag)]
  rfl

/-- **A text in itself is no copy** of the whole: what is in a document from an unfinished
text on has fewer characters than the text was to have. -/
theorem weightOf_lt_of_unfinished {chars start more : List Char} {item : Item}
    {others : List Item} (hlength : chars.length ≤ start.length)
    (hread : State.read ⟨[⟨expressionTag settings grid, chars.map .char⟩, ⟨tag, items⟩], .markup⟩
      (more ++ ending) = some ⟨outer, .epilog document⟩)
    (hdocument : document = tag.element (items ++ item :: others)) :
    weightOf (item :: others) < (start ++ '<' :: more).length := by
  have hmore : more ≠ [] := by
    rintro rfl
    cases hread
  obtain ⟨s, hs, hread⟩ := State.read_append_eq_some_iff.mp hread
  have htext := weight_read_markup hmore hs
  have hend := weight_le_of_read_endTags (by decide) (by decide) hread
  have hparts : partsWeight [⟨expressionTag settings grid, chars.map .char⟩, ⟨tag, items⟩]
      = chars.length + weightOf items := by
    rw [partsWeight, partsWeight, partsWeight, weightOf_chars, Nat.add_zero]
  have hweight : document.weight = weightOf items + weightOf (item :: others) := by
    rw [hdocument, Tag.element, Item.weight, weightOf_append]
  rw [List.length_append, List.length_cons]
  omega

/-- **An expression is plain** if the last text of the document is its line. -/
theorem plain_expression {label : Item} (htag : tag.name = "svg".toList)
    (hread : State.read ⟨[⟨tag, items⟩], .chars .element .lineStart⟩
      ((expressionLine settings grid expression).toList ++ (endTag "svg".toList ++ ['\n']))
        = some ⟨outer, .epilog document⟩)
    (hlast : ((elementsOf [document]).filter (·.hasName "text")).getLast? = some label)
    (hlabel : label.text? = some ("F = " ++ expression).toList) :
    Kind.content.Plain expression.toList := by
  rw [← plain_expressionText_iff]
  rw [read_expressionLine] at hread
  obtain ⟨chars, before, after, hplain, hafter, hends⟩ := exists_of_read_string (.inl rfl) hread
  rcases hends with rfl | ⟨start, more, htext, rfl, hlength⟩
  · apply hplain
    -- the text is read to its end, and the document as well
    cases (read_ending htag chars before).symm.trans hafter
    have htexts : elementsOf [(expressionTag settings grid).element (chars.map .char),
        .char '\n'] = [(expressionTag settings grid).element (chars.map .char)] := by
      show _ :: elementsOf (chars.map .char) ++ [] = _
      rw [elementsOf_chars]
      rfl
    have hmem := mem_elementsOf_of_last hlast rfl
    rw [htexts, List.mem_singleton] at hmem
    rw [hmem, text?_chars] at hlabel
    exact Option.some.inj hlabel
  · -- the line has been left before, and the text is too long for the rest
    rw [State.read_cons_of (c := Spot.element.kind.stop) (step_open rfl)] at hafter
    have hextends : Extends document
        [⟨expressionTag settings grid, []⟩, ⟨tag, items ++ lineItems 2⟩] := by
      obtain h | ⟨tag, h⟩ : Ended document _ ∨ HasNext document _ :=
        State.leadsTo_of_read hafter rfl
      · exact h.extends
      · exact h.of_cons.of_append
    obtain ⟨inner, others, hdocument⟩ := hextends.exists_eq
    rw [hdocument] at hlast
    have hmem := mem_elementsOf_of_last hlast rfl
    have hlt := weightOf_lt_of_unfinished hlength hafter hdocument
    have hle := Nat.le_trans (length_le_of_text? hlabel) (weight_le_of_mem_elementsOf _ hmem)
    rw [htext] at hle
    exact absurd hlt (Nat.not_lt.mpr hle)

end

/-! ## Pictures -/

section

variable (settings : Settings) (grid : Grid) {loops : List Loop} {expression : String}

/-- **The map of a picture** is read, and its loops and the expression come. -/
theorem exists_read_mapLines (loops : List Loop) (expression : String) :
    ∃ items, groups items = []
      ∧ State.read ⟨[], .prolog⟩ (pictureText settings grid loops expression)
      = State.read ⟨[⟨pictureTag (width settings grid) (height settings grid), items⟩],
          .chars .element .lineStart⟩
        (loopLines settings loops ++ ((expressionLine settings grid expression).toList
          ++ (endTag "svg".toList ++ ['\n']))) := by
  obtain ⟨items, hitems, hnone⟩ := ungrouped_mapLines settings grid
  refine ⟨items, hnone, ?_⟩
  simp only [pictureText, List.append_assoc, List.cons_append]
  rw [State.read_append_of (read_startTag_prolog (sound_pictureTag _ _)),
    State.read_cons_of (t := ⟨_, .chars .element .lineStart⟩) rfl,
    State.read_append_of (hitems _ _)]
  rfl

variable {settings grid}

/-- **The strings that come are plain**, if the document shows what they are for. What was
plain before has been read as it is. -/
theorem plainStrings_of_read {done : List Loop} {items : List Item} {outer : List Xml.Part}
    {document : Item} (hitems : (groups items).length = done.length)
    (hread : State.read ⟨[⟨pictureTag (width settings grid) (height settings grid), items⟩],
          .chars .element .lineStart⟩
        (loopLines settings loops ++ ((expressionLine settings grid expression).toList
          ++ (endTag "svg".toList ++ ['\n'])))
      = some ⟨outer, .epilog document⟩)
    (hshows : Shows (done ++ loops) expression document) : PlainStrings loops expression := by
  induction loops generalizing done items with
  | nil =>
    rw [loopLines, List.flatMap_nil, List.nil_append] at hread
    obtain ⟨label, hlast, hlabel⟩ := hshows.label
    exact ⟨List.forall_mem_nil _, List.forall_mem_nil _, plain_expression rfl hread hlast hlabel⟩
  | cons loop loops ih =>
    have hgroup : ∀ group others,
        document = (Xml.Part.append ⟨pictureTag (width settings grid) (height settings grid), items⟩
          (lineItems 2 ++ group :: others)).element →
        group.hasName "g" = true → ShowsLoop loop group := by
      rintro group others rfl hname
      have hdone : (groups (items ++ lineItems 2)).length = done.length := by
        rw [groups_append, groups_lineItems, List.append_nil, hitems]
      have hnext : Shows (done ++ loop :: loops) expression
          ((pictureTag (width settings grid) (height settings grid)).element
            (items ++ lineItems 2 ++ group :: others)) := by
        rw [List.append_assoc]
        exact hshows
      exact hnext.showsLoop hdone hname
    rw [loopLines, List.flatMap_cons, ← loopLines, List.append_assoc] at hread
    have hcolor := plain_color hread hgroup
    have hterm := plain_term hcolor hread hgroup
    rw [State.read_append_of (readsLines_loopGroup _ hcolor hterm _ _)] at hread
    have hdone : (groups (items ++ (lineItems 2
        ++ [groupItem settings.loops.strokeWidth loop]))).length = (done ++ [loop]).length := by
      rw [groups_append, groups_append, groups_lineItems, groups_groupItem, List.nil_append,
        List.length_append, List.length_append, hitems]
      rfl
    rw [List.append_cons] at hshows
    have hrest := ih hdone hread hshows
    exact ⟨List.forall_mem_cons.mpr ⟨hcolor, hrest.colors⟩,
      List.forall_mem_cons.mpr ⟨hterm, hrest.terms⟩, hrest.expression⟩

/-- **A picture shows** its loops and its expression exactly if its strings are plain. -/
theorem shows_pictureText_iff :
    (∃ document, Xml.read (pictureText settings grid loops expression) = some document
      ∧ Shows loops expression document) ↔ PlainStrings loops expression := by
  refine ⟨?_, exists_read_pictureText settings grid⟩
  rintro ⟨document, hread, hshows⟩
  obtain ⟨outer, hread⟩ := read_eq_some_iff.mp hread
  obtain ⟨items, hnone, hmap⟩ := exists_read_mapLines settings grid loops expression
  rw [hmap] at hread
  have hdone : (groups items).length = ([] : List Loop).length := congrArg List.length hnone
  exact plainStrings_of_read hdone hread hshows

end

end Svg

namespace Sheet

/-- **Whether the picture of a sheet can be read.** For a sheet with a map, and with whatever
loops, expression and settings, the picture is a well-formed document that has, in order, one
group for each loop, with its color, its term as title and a path for each of its shapes, and
the expression as its last text, exactly if the strings in it are plain. -/
theorem picture_shows_iff (settings : Settings) {sheet : Sheet} {grid : Grid}
    (hgrid : sheet.grid = some grid) : ∃ text, sheet.svg? settings = some text
      ∧ ((∃ document, Xml.read text.toList = some document
          ∧ Svg.Shows sheet.loops sheet.expression document)
        ↔ Svg.PlainStrings sheet.loops sheet.expression) := by
  obtain ⟨text, htext, hchars⟩ := exists_svg? settings hgrid
  exact ⟨text, htext, hchars ▸ Svg.shows_pictureText_iff⟩

/-- The problem of a function that is one at its last minterm, as it is checked. -/
def lastMinterm : Problem := ⟨.standard, (Spec.of 2 [3] []).normalize⟩

theorem of_lastMinterm : Problem.of .standard (Spec.of 2 [3] []) = .ok lastMinterm := rfl

/-- Whatever answers it, its sheet has a map. -/
theorem exists_solve_lastMinterm (answer : Answer) :
    ∃ sheet grid, lastMinterm.solve (fun _ => .ok answer) = .ok sheet ∧ sheet.grid = some grid
      ∧ sheet.expression = answer.expression
      ∧ sheet.loops = ((Settings.standard.canvasFor Canvas.smallMap.layout).drawingOf
        answer.implicants).loops := by
  have hvalid := (Problem.of_eq_ok_iff.mp of_lastMinterm).1
  have hlayout : lastMinterm.spec.numVars = Canvas.smallMap.layout.numVars := rfl
  obtain ⟨grid, hgrid, -⟩ := Problem.grid_spec hvalid hlayout
  exact ⟨_, grid, Problem.solve_eq_ok rfl (Problem.draw_eq hlayout _), hgrid, rfl, rfl⟩

/-- The conjunction of two variables, with its loop. -/
def conjunctionAnswer : Answer where
  expression := "AB"
  implicants := (Pattern.ofBits? [some true, some true]).toList.map .ofPattern
  primes := []
  statistics := .none

/-- The theorem at a map with a loop. -/
theorem picture_shows_conjunction :
    ∃ sheet text document, lastMinterm.solve (fun _ => .ok conjunctionAnswer) = .ok sheet
      ∧ sheet.loops.map (fun l => (l.color, l.term)) = [("#FF3B30", "AB")]
      ∧ sheet.svg? .standard = some text ∧ Xml.read text.toList = some document
      ∧ Svg.Shows sheet.loops "AB" document := by
  obtain ⟨sheet, grid, hsolve, hgrid, hexpression, hloops⟩ :=
    exists_solve_lastMinterm conjunctionAnswer
  have hstrings : sheet.loops.map (fun l => (l.color, l.term)) = [("#FF3B30", "AB")] := by
    rw [hloops]
    decide +kernel
  have hloop : ∀ loop ∈ sheet.loops, (loop.color, loop.term) = ("#FF3B30", "AB") := by
    intro loop hloop
    have hmem := List.mem_map_of_mem (f := fun l : Loop => (l.color, l.term)) hloop
    rw [hstrings] at hmem
    exact List.mem_singleton.mp hmem
  obtain ⟨text, htext, hshows⟩ := picture_shows_iff .standard hgrid
  have hplain : Svg.PlainStrings sheet.loops sheet.expression := by
    refine ⟨fun loop h => ?_, fun loop h => ?_, ?_⟩
    · rw [(Prod.mk.inj (hloop loop h)).1]
      exact plain_value (List.all_eq_true.mp (by decide))
    · rw [(Prod.mk.inj (hloop loop h)).2]
      exact plain_content (List.all_eq_true.mp (by decide))
    · rw [hexpression]
      exact plain_content (List.all_eq_true.mp (by decide))
  obtain ⟨document, hread, hdocument⟩ := hshows.mpr hplain
  rw [hexpression] at hdocument
  exact ⟨sheet, text, document, hsolve, hstrings, htext, hread, hdocument⟩

/-- The same function, with a sign between the variables that readers of expressions take for
their conjunction. -/
def signedAnswer : Answer where
  expression := "A & B"
  implicants := []
  primes := []
  statistics := .none

/-- **A sign in an expression** makes its picture one that no reader takes: `&` starts a
reference, and a blank is no name of one. -/
theorem exists_picture_refused :
    ∃ sheet text, Expression.parse "A & B" 2 = .ok [3]
      ∧ lastMinterm.solve (fun _ => .ok signedAnswer) = .ok sheet ∧ sheet.expression = "A & B"
      ∧ sheet.svg? .standard = some text ∧ Xml.read text.toList = none := by
  have hparse : Expression.parse "A & B" 2 = .ok [3] := by decide +kernel
  have hblank : ∀ parts, State.read ⟨parts, .chars .element .start⟩ "F = A & ".toList = none :=
    fun _ => rfl
  obtain ⟨sheet, grid, hsolve, hgrid, hexpression, hloops⟩ := exists_solve_lastMinterm signedAnswer
  obtain ⟨text, htext, hchars⟩ := exists_svg? .standard hgrid
  refine ⟨sheet, text, hparse, hsolve, hexpression, htext, ?_⟩
  obtain ⟨items, -, hmap⟩ := Svg.exists_read_mapLines .standard grid sheet.loops sheet.expression
  have hnoLoops : Svg.loopLines .standard sheet.loops = [] := by
    rw [hloops]
    rfl
  have hread : State.read ⟨[], .prolog⟩ text.toList = none := by
    rw [hchars, hmap, hnoLoops, List.nil_append, Svg.read_expressionLine, hexpression]
    show State.read _ ("F = A & ".toList ++ ("B".toList ++ Svg.ending)) = none
    rw [State.read_append, hblank]
    rfl
  rw [Xml.read, hread]

end Sheet

end Karnaugh
