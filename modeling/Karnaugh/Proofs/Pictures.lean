import Mathlib.Data.List.Forall2
import Karnaugh.Proofs.Outlines
import Karnaugh.Proofs.XmlPieces
import Karnaugh.Sheet.Svg
import Karnaugh.Text.Split

/-!
# Pictures read back

A picture is read by other programs as an XML document. What it has to show there are its
loops, each as a group with the color, the term and the shapes of the loop, and after them
the expression (`Svg.Shows`).

Colors, terms and the expression stand in a picture as they are, between characters that
are written for the reader. Numbers, labels and path data are made of characters that mean
nothing else to it. So a picture is read line by line as the items it was made from, as long
as the strings in it are plain (`Svg.exists_read_pictureText`). That it is not read so
otherwise is shown in `Karnaugh.Proofs.PictureStrings`.
-/

namespace Karnaugh

open Text Xml

/-! ## What a picture has to show -/

namespace Svg

/-- **A group shows a loop** if it has the color of the loop, one title that is its term,
and a path for each of its shapes. -/
structure ShowsLoop (loop : Loop) (group : Item) : Prop where
  /-- The color. -/
  color : group.attribute? "stroke" = some loop.color.toList
  /-- The title. -/
  title : ∃ title, group.children.filter (·.hasName "title") = [title]
    ∧ title.text? = some loop.term.toList
  /-- The paths. -/
  paths : (group.children.filter (·.hasName "path")).map (·.attribute? "d")
    = loop.shapes.map fun shape => some shape.pathData.toList

/-- The groups among items and in them. -/
def groups (items : List Item) : List Item := (elementsOf items).filter (·.hasName "g")

/-- **A document shows loops and an expression** if it has a group for each of the loops,
in their order, and the last of its texts is the expression. -/
structure Shows (loops : List Loop) (expression : String) (document : Item) : Prop where
  /-- The groups. -/
  groups : List.Forall₂ ShowsLoop loops (groups [document])
  /-- The last text. -/
  label : ∃ label, ((elementsOf [document]).filter (·.hasName "text")).getLast? = some label
    ∧ label.text? = some ("F = " ++ expression).toList

/-- **The strings of a picture are plain** if each stands for itself where it stands: the
colors between quotes, the terms and the expression in an element. -/
structure PlainStrings (loops : List Loop) (expression : String) : Prop where
  /-- The colors. -/
  colors : ∀ loop ∈ loops, (Kind.value '"').Plain loop.color.toList
  /-- The terms. -/
  terms : ∀ loop ∈ loops, Kind.content.Plain loop.term.toList
  /-- The expression. -/
  expression : Kind.content.Plain expression.toList

/-! ## Characters in pictures -/

theorem isSafe_of_isDigit {c : Char} (h : c.isDigit) : isSafe c = true := by
  have hspecial : specialChars.any Char.isDigit = false := by decide
  have hother : ¬specialChars.contains c = true := fun hc =>
    List.any_eq_false.mp hspecial c (List.contains_iff_mem.mp hc) h
  have hlegal : isLegal c = true := by
    simp only [Char.isDigit, Bool.and_eq_true, decide_eq_true_eq] at h
    have hlow : 48 ≤ c.toNat := h.1
    have hhigh : c.toNat ≤ 57 := h.2
    simp only [isLegal, isIn, List.any_cons, Bool.or_eq_true, Bool.and_eq_true, decide_eq_true_eq]
    omega
  rw [isSafe, hlegal, Bool.true_and, Bool.not_eq_true', Bool.eq_false_iff.mpr hother]

theorem isSafe_of_isFigure {c : Char} (h : Decimal.isFigure c = true) : isSafe c = true := by
  rcases Bool.or_eq_true_iff.mp h with h | h
  · exact isSafe_of_isDigit h
  · have hothers : ['-', '.', 'N', 'a', 'n', 'i', 'f'].all isSafe = true := by decide
    exact List.all_eq_true.mp hothers c (List.contains_iff_mem.mp h)

/-- **The numbers of a picture** are safe. -/
theorem safe_plain (x : Float) : ∀ c ∈ (Decimal.plain x).toList, isSafe c = true :=
  fun c hc => isSafe_of_isFigure ((Decimal.plain_spec x).2 c hc)

theorem safe_numeral (n : Nat) : ∀ c ∈ (numeral n).toList, isSafe c = true := by
  rw [numeral, Nat.toList_repr]
  exact fun c hc => isSafe_of_isDigit (Nat.isDigit_of_mem_toDigits (by decide) (by decide) hc)

/-- So are the values of variables. -/
theorem safe_axisLabel (bits position : Nat) :
    ∀ c ∈ (Layout.axisLabel bits position).toList, isSafe c = true := by
  rw [Layout.axisLabel, String.toList_ofList]
  intro c hc
  rcases List.mem_append.mp hc with hc | hc
  · exact List.eq_of_mem_replicate hc ▸ (by decide)
  · exact isSafe_of_isDigit (Nat.isDigit_of_mem_toDigits (by decide) (by decide) hc)

/-- So are their names. -/
theorem safe_corner (layout : Layout) : ∀ c ∈
    (layout.rowVariables ++ "\\" ++ layout.colVariables).toList, isSafe c = true := by
  have hnames : variableNames.all isSafe = true := by decide
  have hname := List.all_eq_true.mp hnames
  simp only [Layout.rowVariables, Layout.colVariables, String.toList_append, String.toList_ofList]
  intro c hc
  rcases List.mem_append.mp hc with hc | hc
  · rcases List.mem_append.mp hc with hc | hc
    · exact hname c (List.mem_of_mem_take hc)
    · exact List.mem_singleton.mp hc ▸ (by decide)
  · exact hname c (List.mem_of_mem_take (List.mem_of_mem_drop hc))

/-- So is path data. -/
theorem safe_pathData (shape : Shape) : ∀ c ∈ shape.pathData.toList, isSafe c = true := by
  have hpoint : ∀ p : Point, ∀ c ∈ p.toText.toList, isSafe c = true := by
    intro p
    rw [Point.toText, String.toList_append, String.toList_append]
    simp only [List.forall_mem_append]
    exact ⟨⟨safe_plain p.x, List.all_eq_true.mp (by decide)⟩, safe_plain p.y⟩
  have hstroke : ∀ stroke : Stroke, ∀ c ∈ stroke.toText.toList, isSafe c = true := by
    intro stroke
    cases stroke with
    | move p =>
      rw [Stroke.toText, String.toList_append, List.forall_mem_append]
      exact ⟨List.all_eq_true.mp (by decide), hpoint p⟩
    | line p =>
      rw [Stroke.toText, String.toList_append, List.forall_mem_append]
      exact ⟨List.all_eq_true.mp (by decide), hpoint p⟩
    | curve control p =>
      rw [Stroke.toText, String.toList_append, String.toList_append, String.toList_append]
      simp only [List.forall_mem_append]
      exact ⟨⟨⟨List.all_eq_true.mp (by decide), hpoint control⟩,
        List.all_eq_true.mp (by decide)⟩, hpoint p⟩
    | close => exact List.all_eq_true.mp (by decide)
  intro c hc
  rw [Shape.pathData, String.toList_intercalate] at hc
  rcases mem_of_mem_intercalate hc with hc | ⟨piece, hpiece, hc⟩
  · exact List.mem_singleton.mp hc ▸ (by decide)
  · obtain ⟨text, htext, rfl⟩ := List.mem_map.mp hpiece
    obtain ⟨stroke, -, rfl⟩ := List.mem_map.mp htext
    exact hstroke stroke c hc

/-! ## Lines of pictures -/

/-- A tag with attributes. -/
def tag (name : String) (attributes : List (String × String)) : Tag :=
  ⟨name.toList, attributes.map fun a => (a.1.toList, a.2.toList)⟩

/-- A tag is sound if its names are, and its values are plain. -/
theorem sound_tag {name : String} {attributes : List (String × String)} (names : List String)
    (hnames : attributes.map Prod.fst = names)
    (hsound : isName name.toList ∧ names.all (isName ·.toList) ∧ (names.map String.toList).Nodup)
    (hvalues : ∀ a ∈ attributes, (Kind.value '"').Plain a.2.toList) :
    (tag name attributes).Sound where
  name := hsound.1
  names := by
    intro a ha
    obtain ⟨b, hb, rfl⟩ := List.mem_map.mp ha
    exact List.all_eq_true.mp hsound.2.1 b.1 (hnames ▸ List.mem_map_of_mem hb)
  nodup := by
    have hmap : (tag name attributes).attributes.map Prod.fst = names.map String.toList := by
      rw [← hnames, tag, List.map_map, List.map_map]
      rfl
    exact hmap ▸ hsound.2.2
  values := by
    intro a ha
    obtain ⟨b, hb, rfl⟩ := List.mem_map.mp ha
    exact hvalues b hb

/-- The tag of a text that starts at a point. -/
def labelTag (x y : Float) (size : Nat) : Tag :=
  tag "text" [("x", Decimal.plain x), ("y", Decimal.plain y), ("font-size", numeral size)]

/-- The tag of a text whose middle is at a point. -/
def centeredTag (x y : Float) (size : Nat) : Tag :=
  tag "text" [("x", Decimal.plain x), ("y", Decimal.plain y), ("font-size", numeral size),
    ("text-anchor", "middle")]

/-- The tag of the frame of a cell. -/
def frameTag (b : Box) : Tag :=
  tag "rect" [("x", Decimal.plain b.x), ("y", Decimal.plain b.y),
    ("width", Decimal.plain b.width), ("height", Decimal.plain b.height),
    ("fill", "#ffffff"), ("stroke", "#cccccc")]

/-- The tag of a picture of a given size. -/
def pictureTag (width height : Float) : Tag :=
  tag "svg" [("xmlns", "http://www.w3.org/2000/svg"), ("width", Decimal.plain width),
    ("height", Decimal.plain height),
    ("viewBox", "0 0 " ++ Decimal.plain width ++ " " ++ Decimal.plain height),
    ("font-family", "monospace")]

/-- The tag of the group of a loop. -/
def groupTag (strokeWidth : Float) (loop : Loop) : Tag :=
  tag "g" [("stroke", loop.color), ("stroke-width", Decimal.plain strokeWidth),
    ("fill", "none"), ("opacity", Decimal.fixed 2 (loop.emphasis + 0.3))]

/-- The tag of the title of a loop. -/
def titleTag : Tag := tag "title" []

/-- The tag of the outline of a shape. -/
def pathTag (shape : Shape) : Tag := tag "path" [("d", shape.pathData)]

theorem toList_label (x y : Float) (size : Nat) (content : String) :
    (label x y size content).toList
      = line 2 (startTag (labelTag x y size) ++ content.toList ++ endTag "text".toList) := by
  unfold label quantity
  simp only [String.toList_append, line, startTag, Tag.text, labelTag, tag,
    endTag, attributeText, List.map_cons, List.map_nil, List.flatMap_cons, List.flatMap_nil,
    List.append_assoc, List.cons_append, List.nil_append, String.reduceToList]
  rfl

theorem toList_centered (x y : Float) (size : Nat) (content : String) :
    (centered x y size content).toList
      = line 2 (startTag (centeredTag x y size) ++ content.toList ++ endTag "text".toList) := by
  unfold centered quantity
  simp only [String.toList_append, line, startTag, Tag.text, centeredTag, tag,
    endTag, attributeText, List.map_cons, List.map_nil, List.flatMap_cons, List.flatMap_nil,
    List.append_assoc, List.cons_append, List.nil_append, String.reduceToList]
  rfl

theorem toList_frame (b : Box) : (frame b).toList = line 2 (emptyTag (frameTag b)) := by
  unfold frame quantity
  simp only [String.toList_append, line, emptyTag, Tag.text, frameTag, tag,
    attributeText, List.map_cons, List.map_nil, List.flatMap_cons, List.flatMap_nil,
    List.append_assoc, List.cons_append, List.nil_append, String.reduceToList]
  rfl

theorem toList_opening (width height : Float) :
    (opening width height).toList = startTag (pictureTag width height) ++ ['\n'] := by
  unfold opening quantity
  simp only [String.toList_append, startTag, Tag.text, pictureTag, tag,
    attributeText, List.map_cons, List.map_nil, List.flatMap_cons, List.flatMap_nil,
    List.append_assoc, List.cons_append, List.nil_append, String.reduceToList]

theorem toList_loopGroup (strokeWidth : Float) (loop : Loop) :
    (loopGroup strokeWidth loop).toList
      = line 2 (startTag (groupTag strokeWidth loop) ++ '\n' ::
          (line 4 (startTag titleTag ++ loop.term.toList ++ endTag "title".toList)
            ++ loop.shapes.flatMap fun shape => line 4 (emptyTag (pathTag shape)))
          ++ List.replicate 2 ' ' ++ endTag "g".toList) := by
  unfold loopGroup quantity
  simp only [String.toList_append, String.toList_join, List.flatMap_map, line, startTag, emptyTag,
    endTag, Tag.text, groupTag, titleTag, pathTag, tag, attributeText, List.map_cons,
    List.map_nil, List.flatMap_cons, List.flatMap_nil, List.append_assoc, List.cons_append,
    List.nil_append, String.reduceToList]
  rfl

theorem sound_labelTag (x y : Float) (size : Nat) : (labelTag x y size).Sound := by
  refine sound_tag ["x", "y", "font-size"] rfl (by decide) ?_
  simp only [List.forall_mem_cons]
  exact ⟨plain_value (safe_plain x), plain_value (safe_plain y),
    plain_value (safe_numeral size), nofun⟩

theorem sound_centeredTag (x y : Float) (size : Nat) : (centeredTag x y size).Sound := by
  refine sound_tag ["x", "y", "font-size", "text-anchor"] rfl (by decide) ?_
  simp only [List.forall_mem_cons]
  exact ⟨plain_value (safe_plain x), plain_value (safe_plain y),
    plain_value (safe_numeral size), plain_value (List.all_eq_true.mp (by decide)), nofun⟩

theorem sound_frameTag (b : Box) : (frameTag b).Sound := by
  refine sound_tag ["x", "y", "width", "height", "fill", "stroke"] rfl (by decide) ?_
  simp only [List.forall_mem_cons]
  exact ⟨plain_value (safe_plain b.x), plain_value (safe_plain b.y),
    plain_value (safe_plain b.width), plain_value (safe_plain b.height),
    plain_value (List.all_eq_true.mp (by decide)), plain_value (List.all_eq_true.mp (by decide)),
    nofun⟩

theorem sound_pictureTag (width height : Float) : (pictureTag width height).Sound := by
  refine sound_tag ["xmlns", "width", "height", "viewBox", "font-family"] rfl (by decide) ?_
  simp only [List.forall_mem_cons]
  refine ⟨plain_value (List.all_eq_true.mp (by decide)), plain_value (safe_plain width),
    plain_value (safe_plain height), plain_value ?_, plain_value (List.all_eq_true.mp (by decide)),
    nofun⟩
  simp only [String.toList_append, List.forall_mem_append]
  exact ⟨⟨⟨List.all_eq_true.mp (by decide), safe_plain width⟩, List.all_eq_true.mp (by decide)⟩,
    safe_plain height⟩

/-- The tag of a group is sound if the color is plain. -/
theorem sound_groupTag (strokeWidth : Float) {loop : Loop}
    (h : (Kind.value '"').Plain loop.color.toList) : (groupTag strokeWidth loop).Sound := by
  refine sound_tag ["stroke", "stroke-width", "fill", "opacity"] rfl (by decide) ?_
  simp only [List.forall_mem_cons]
  exact ⟨h, plain_value (safe_plain strokeWidth), plain_value (List.all_eq_true.mp (by decide)),
    plain_value fun c hc => isSafe_of_isFigure (Decimal.isFigure_of_mem_fixed 2 _ c hc), nofun⟩

theorem sound_titleTag : titleTag.Sound :=
  sound_tag [] rfl (by decide) nofun

theorem sound_pathTag (shape : Shape) : (pathTag shape).Sound := by
  refine sound_tag ["d"] rfl (by decide) ?_
  simp only [List.forall_mem_cons]
  exact ⟨plain_value (safe_pathData shape), nofun⟩

/-! ## What the lines read as -/

/-- What is in the group of a loop. -/
def groupChildren (loop : Loop) : List Item :=
  lineItems 4 ++ [titleTag.element (loop.term.toList.map .char)]
    ++ loop.shapes.flatMap (fun shape => lineItems 4 ++ [(pathTag shape).element []])

/-- The group of a loop. -/
def groupItem (strokeWidth : Float) (loop : Loop) : Item :=
  (groupTag strokeWidth loop).element (groupChildren loop ++ lineItems 2)

theorem readsLines_label (x y : Float) (size : Nat) {content : String}
    (h : Kind.content.Plain content.toList) :
    ReadsLines (label x y size content).toList
      (lineItems 2 ++ [(labelTag x y size).element (content.toList.map .char)]) := by
  rw [toList_label]
  exact .of_readsItem (readsItem_text (sound_labelTag x y size) h) 2

theorem readsLines_centered (x y : Float) (size : Nat) {content : String}
    (h : ∀ c ∈ content.toList, isSafe c = true) :
    ReadsLines (centered x y size content).toList
      (lineItems 2 ++ [(centeredTag x y size).element (content.toList.map .char)]) := by
  rw [toList_centered]
  exact .of_readsItem (readsItem_text (sound_centeredTag x y size) (plain_content h)) 2

theorem readsLines_frame (b : Box) :
    ReadsLines (frame b).toList (lineItems 2 ++ [(frameTag b).element []]) := by
  rw [toList_frame]
  exact .of_readsItem (readsItem_empty (sound_frameTag b)) 2

/-- **The group of a loop** is read if its color and its term are plain. -/
theorem readsLines_loopGroup (strokeWidth : Float) {loop : Loop}
    (hcolor : (Kind.value '"').Plain loop.color.toList)
    (hterm : Kind.content.Plain loop.term.toList) :
    ReadsLines (loopGroup strokeWidth loop).toList
      (lineItems 2 ++ [groupItem strokeWidth loop]) := by
  have htitle := ReadsLines.of_readsItem (readsItem_text sound_titleTag hterm) 4
  have hpaths : ReadsLines (loop.shapes.flatMap fun shape => line 4 (emptyTag (pathTag shape)))
      (loop.shapes.flatMap fun shape => lineItems 4 ++ [(pathTag shape).element []]) :=
    .flatMap fun shape _ => .of_readsItem (readsItem_empty (sound_pathTag shape)) 4
  rw [toList_loopGroup]
  exact .of_readsItem
    (readsItem_lines (sound_groupTag strokeWidth hcolor) (htitle.append hpaths) 2) 2

/-! ## What the items show -/

@[simp]
theorem elementsOf_lineItems (indent : Nat) : elementsOf (lineItems indent) = [] := by
  rw [lineItems, ← List.map_replicate]
  exact elementsOf_chars ('\n' :: List.replicate indent ' ')

theorem filter_lineItems (name : String) (indent : Nat) :
    (lineItems indent).filter (·.hasName name) = [] := by
  rw [List.filter_eq_nil_iff]
  intro item hitem
  rcases List.mem_cons.mp hitem with rfl | hitem
  · exact Bool.false_ne_true
  · exact List.eq_of_mem_replicate hitem ▸ Bool.false_ne_true

/-- The first attribute of an element is found by its name. -/
theorem attribute?_tag (element name value : String) (attributes : List (String × String))
    (children : List Item) :
    ((tag element ((name, value) :: attributes)).element children).attribute? name
      = some value.toList :=
  List.lookup_cons_self

/-- The text of an element is what was written in it. -/
theorem text?_chars (tag : Tag) (text : List Char) :
    (tag.element (text.map .char)).text? = some text :=
  text?_eq_some_iff.mpr rfl

/-- In a group there are the title and the paths, apart from line ends and spaces. -/
theorem filter_groupItem (strokeWidth : Float) (loop : Loop) (name : String) :
    (groupItem strokeWidth loop).children.filter (·.hasName name)
      = [titleTag.element (loop.term.toList.map .char)].filter (·.hasName name)
        ++ (loop.shapes.map fun shape => (pathTag shape).element []).filter (·.hasName name) := by
  show List.filter _ (groupChildren loop ++ lineItems 2) = _
  have hpaths : ∀ shapes : List Shape, (shapes.flatMap fun shape =>
        lineItems 4 ++ [(pathTag shape).element []]).filter (·.hasName name)
      = (shapes.map fun shape => (pathTag shape).element []).filter (·.hasName name) := by
    intro shapes
    induction shapes with
    | nil => rfl
    | cons shape shapes ih =>
      rw [List.flatMap_cons, List.filter_append, List.filter_append, filter_lineItems, ih,
        List.nil_append, ← List.filter_append]
      rfl
  rw [groupChildren, List.filter_append, List.filter_append, List.filter_append, hpaths,
    filter_lineItems, filter_lineItems, List.nil_append, List.append_nil]

/-- **The group of a loop shows it.** -/
theorem showsLoop_groupItem (strokeWidth : Float) (loop : Loop) :
    ShowsLoop loop (groupItem strokeWidth loop) where
  color := attribute?_tag "g" "stroke" loop.color _ _
  title := by
    have hpaths : (loop.shapes.map fun shape => (pathTag shape).element []).filter
        (·.hasName "title") = [] := by
      rw [List.filter_map, List.map_eq_nil_iff]
      exact List.filter_eq_nil_iff.mpr fun _ _ => Bool.false_ne_true
    refine ⟨titleTag.element (loop.term.toList.map .char), ?_, text?_chars _ _⟩
    rw [filter_groupItem, hpaths, List.append_nil]
    rfl
  paths := by
    have hpaths : (loop.shapes.map fun shape => (pathTag shape).element []).filter
        (·.hasName "path") = loop.shapes.map fun shape => (pathTag shape).element [] := by
      rw [List.filter_map]
      exact congrArg _ (List.filter_eq_self.mpr fun _ _ => rfl)
    rw [filter_groupItem, hpaths]
    show List.map _ (List.map _ _) = _
    rw [List.map_map]
    exact List.map_congr_left fun shape _ => attribute?_tag "path" "d" shape.pathData [] []

theorem groups_append (items more : List Item) :
    groups (items ++ more) = groups items ++ groups more := by
  rw [groups, elementsOf_append, List.filter_append]
  rfl

@[simp]
theorem groups_lineItems (indent : Nat) : groups (lineItems indent) = [] := by
  rw [groups, elementsOf_lineItems]
  rfl

/-- An element of another name is no group, nor is the text in it. -/
theorem groups_text {name : String} {attributes : List (String × String)} (hname : name ≠ "g")
    (text : List Char) : groups [(tag name attributes).element (text.map .char)] = [] := by
  show List.filter _ ((tag name attributes).element (text.map .char)
    :: elementsOf (text.map .char) ++ []) = []
  rw [elementsOf_chars]
  refine List.filter_eq_nil_iff.mpr fun item hitem => ?_
  cases List.mem_singleton.mp hitem
  exact fun h => hname (String.toList_inj.mp (beq_iff_eq.mp h))

/-- A picture is no group itself. -/
theorem groups_picture (width height : Float) (items : List Item) :
    groups [(pictureTag width height).element items] = groups items := by
  show List.filter _ (elementsOf items ++ []) = _
  rw [List.append_nil]
  rfl

/-- There are no groups in the group of a loop. -/
theorem groups_groupItem (strokeWidth : Float) (loop : Loop) :
    groups [groupItem strokeWidth loop] = [groupItem strokeWidth loop] := by
  have hpaths : ∀ shapes : List Shape, groups (shapes.flatMap fun shape =>
      lineItems 4 ++ [(pathTag shape).element []]) = [] := by
    intro shapes
    induction shapes with
    | nil => rfl
    | cons shape shapes ih =>
      rw [List.flatMap_cons, groups_append, groups_append, groups_lineItems, ih]
      rfl
  have hchildren : groups (groupChildren loop ++ lineItems 2) = [] := by
    rw [groupChildren, groups_append, groups_append, groups_append, hpaths, groups_lineItems,
      groups_lineItems, titleTag, groups_text (by decide)]
    rfl
  show groupItem strokeWidth loop
    :: List.filter _ (elementsOf (groupChildren loop ++ lineItems 2) ++ []) = _
  rw [List.append_nil]
  exact congrArg (groupItem strokeWidth loop :: ·) hchildren

/-! ## Pictures -/

variable (settings : Settings) (grid : Grid)

/-- The lines of a picture that show the map. -/
def mapLines : String :=
  label (settings.geometry.originX / 4) (settings.geometry.originY / 2) 14
      (grid.layout.rowVariables ++ "\\" ++ grid.layout.colVariables)
    ++ columnLabels settings grid
    ++ String.join (grid.layout.cells.map (cellElements settings grid))

/-- The line of a picture that shows the expression. -/
def expressionLine (expression : String) : String :=
  label (settings.geometry.originX / 4) (height settings grid - 12) 16 ("F = " ++ expression)

/-- **Lines are ungrouped** if they read as items among which there are no groups. -/
def Ungrouped (lines : String) : Prop :=
  ∃ items, ReadsLines lines.toList items ∧ groups items = []

namespace Ungrouped

theorem empty : Ungrouped "" := ⟨[], .nil, rfl⟩

theorem append {lines more : String} (h : Ungrouped lines) (hmore : Ungrouped more) :
    Ungrouped (lines ++ more) := by
  obtain ⟨items, hitems, hgroups⟩ := h
  obtain ⟨others, hothers, hnone⟩ := hmore
  refine ⟨items ++ others, String.toList_append ▸ hitems.append hothers, ?_⟩
  rw [groups_append, hgroups, hnone, List.append_nil]

theorem join {α : Type} {lines : α → String} (h : ∀ x, Ungrouped (lines x)) (xs : List α) :
    Ungrouped (String.join (xs.map lines)) := by
  induction xs with
  | nil => exact empty
  | cons x xs ih =>
    rw [List.map_cons, String.join_cons]
    exact (h x).append ih

end Ungrouped

theorem ungrouped_label (x y : Float) (size : Nat) {content : String}
    (h : ∀ c ∈ content.toList, isSafe c = true) : Ungrouped (label x y size content) := by
  refine ⟨_, readsLines_label x y size (plain_content h), ?_⟩
  rw [groups_append, groups_lineItems, labelTag, groups_text (by decide)]
  rfl

theorem ungrouped_centered (x y : Float) (size : Nat) {content : String}
    (h : ∀ c ∈ content.toList, isSafe c = true) : Ungrouped (centered x y size content) := by
  refine ⟨_, readsLines_centered x y size h, ?_⟩
  rw [groups_append, groups_lineItems, centeredTag, groups_text (by decide)]
  rfl

theorem ungrouped_frame (b : Box) : Ungrouped (frame b) := by
  refine ⟨_, readsLines_frame b, ?_⟩
  rw [groups_append, groups_lineItems]
  rfl

/-- **The lines of the map** are read, and have no groups. -/
theorem ungrouped_mapLines : Ungrouped (mapLines settings grid) := by
  have hcolumns : Ungrouped (columnLabels settings grid) := by
    refine .join (fun col => ?_) _
    cases (settings.geometryFor grid.layout).boxOf ⟨0, col⟩ with
    | none => exact .empty
    | some b => exact ungrouped_centered _ _ _ (safe_axisLabel _ _)
  have hcells : ∀ cell, Ungrouped (cellElements settings grid cell) := by
    intro cell
    unfold cellElements
    cases (settings.geometryFor grid.layout).boxOf cell with
    | none => exact .empty
    | some b =>
      have hsymbol : ∀ c ∈ (String.singleton (grid.stateAt cell).symbol).toList,
          isSafe c = true := by
        rw [String.toList_singleton, List.forall_mem_singleton]
        cases grid.stateAt cell <;> decide
      refine .append (.append ?_ (ungrouped_frame b)) (ungrouped_centered _ _ _ hsymbol)
      split
      · exact ungrouped_centered _ _ _ (safe_axisLabel _ _)
      · exact .empty
  exact ((ungrouped_label _ _ _ (safe_corner grid.layout)).append hcolumns).append
    (.join hcells _)

/-- The lines of a picture that show loops. -/
def loopLines (loops : List Loop) : List Char :=
  loops.flatMap fun loop => (loopGroup settings.loops.strokeWidth loop).toList

/-- A picture, from its parts. -/
def pictureText (loops : List Loop) (expression : String) : List Char :=
  startTag (pictureTag (width settings grid) (height settings grid)) ++ '\n' ::
    ((mapLines settings grid).toList ++ loopLines settings loops
      ++ (expressionLine settings grid expression).toList) ++ endTag "svg".toList ++ ['\n']

variable {loops : List Loop} {expression : String}

/-- The line of an expression is plain if the expression is. -/
theorem plain_expressionText_iff :
    Kind.content.Plain ("F = " ++ expression).toList ↔ Kind.content.Plain expression.toList := by
  rw [String.toList_append]
  exact plain_safe_append_iff (List.all_eq_true.mp (by decide))

/-- The tag of the expression. -/
def expressionTag : Tag := labelTag (settings.geometry.originX / 4) (height settings grid - 12) 16

/-- What the line of an expression reads as. -/
def expressionItems (expression : String) : List Item :=
  lineItems 2
    ++ [(expressionTag settings grid).element (("F = " ++ expression).toList.map .char)]

/-- What the lines of loops read as. -/
def loopItems (loops : List Loop) : List Item :=
  loops.flatMap fun loop => lineItems 2 ++ [groupItem settings.loops.strokeWidth loop]

theorem groups_loopItems (loops : List Loop) :
    groups (loopItems settings loops) = loops.map (groupItem settings.loops.strokeWidth) := by
  induction loops with
  | nil => rfl
  | cons loop loops ih =>
    rw [loopItems, List.flatMap_cons, groups_append, groups_append, groups_lineItems,
      groups_groupItem, ← loopItems, ih]
    rfl

/-- **A document with the items of loops and an expression** shows these. -/
theorem shows_document {mapItems : List Item} (hmap : groups mapItems = [])
    (loops : List Loop) (expression : String) :
    Shows loops expression ((pictureTag (width settings grid) (height settings grid)).element
      (mapItems ++ loopItems settings loops ++ expressionItems settings grid expression
        ++ lineItems 0)) where
  groups := by
    have hlabel : groups (expressionItems settings grid expression) = [] := by
      rw [expressionItems, groups_append, groups_lineItems, expressionTag, labelTag,
        groups_text (by decide)]
      rfl
    rw [groups_picture, groups_append, groups_append, groups_append, hmap, groups_loopItems,
      hlabel, groups_lineItems, List.nil_append, List.append_nil, List.append_nil,
      List.forall₂_map_right_iff, List.forall₂_same]
    exact fun loop _ => showsLoop_groupItem _ loop
  label := by
    have htext : (elementsOf (expressionItems settings grid expression)).filter
        (·.hasName "text")
        = [(expressionTag settings grid).element (("F = " ++ expression).toList.map .char)] := by
      rw [expressionItems, elementsOf_append, elementsOf_lineItems]
      show List.filter _ (_ :: elementsOf (("F = " ++ expression).toList.map .char) ++ []) = _
      rw [elementsOf_chars]
      rfl
    refine ⟨(expressionTag settings grid).element (("F = " ++ expression).toList.map .char), ?_,
      text?_chars _ _⟩
    show (List.filter _ (elementsOf _ ++ [])).getLast? = _
    rw [List.append_nil, elementsOf_append, elementsOf_append, elementsOf_lineItems,
      List.append_nil, List.filter_append, htext, List.getLast?_concat]

/-- **A picture with plain strings** is read, and shows what it has to show. -/
theorem exists_read_pictureText (h : PlainStrings loops expression) :
    ∃ document, Xml.read (pictureText settings grid loops expression) = some document
      ∧ Shows loops expression document := by
  obtain ⟨mapItems, hmap, hnone⟩ := ungrouped_mapLines settings grid
  have hgroups : ReadsLines (loopLines settings loops) (loopItems settings loops) :=
    .flatMap fun loop hloop => readsLines_loopGroup _ (h.colors loop hloop) (h.terms loop hloop)
  have hlabel := readsLines_label (settings.geometry.originX / 4) (height settings grid - 12) 16
    (plain_expressionText_iff.mpr h.expression)
  exact ⟨_, read_document (sound_pictureTag _ _) ((hmap.append hgroups).append hlabel),
    shows_document settings grid hnone loops expression⟩

end Svg

namespace Sheet

/-- The loops of a sheet. -/
def loops (sheet : Sheet) : List Loop := (sheet.drawing.map Drawing.loops).getD []

/-- **A sheet with a map** has a picture. -/
theorem exists_svg? (settings : Settings) {sheet : Sheet} {grid : Grid}
    (hgrid : sheet.grid = some grid) : ∃ text, sheet.svg? settings = some text
      ∧ text.toList = Svg.pictureText settings grid sheet.loops sheet.expression := by
  unfold svg?
  rw [hgrid]
  refine ⟨_, rfl, ?_⟩
  simp only [Svg.pictureText, Svg.mapLines, Svg.loopLines, Svg.expressionLine, Svg.toList_opening,
    String.toList_append, String.toList_join, List.flatMap_map, endTag, List.append_assoc,
    List.cons_append, List.nil_append, String.reduceToList]
  rfl

end Sheet

end Karnaugh
