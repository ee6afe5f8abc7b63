import Karnaugh.Proofs.Batches

/-!
# Tables read back

A table of problems is written for other programs, which read it by the rules of
comma-separated values: a field may stand between quotes, and then has each of its
quotes twice; outside quotes a comma ends the field and a line feed ends the record.
`Csv.read` is such a reader. It gives back whatever is written by these rules
(`Csv.IsRecord.read_append`).

The lines of a table have their lists between quotes, but the expression as it is. So
a table can be read back exactly if no expression has a comma, a quote or a line break
(`Csv.read_csv_iff`). An expression that the minimizer has written has none of them,
and what a batch exports can be read back. An expression that somebody typed may have
them, and is then torn apart (`Csv.exists_csv_torn`).
-/

namespace Karnaugh

open Text

namespace Csv

/-! ## Reading -/

/-- The characters that mean something outside quotes. -/
def marks : List Char := [',', '"', '\r', '\n']

/-- Whether a character stands for itself, with or without quotes. -/
def isPlain (c : Char) : Bool := !marks.contains c

/-- **A text is plain** if all of its characters stand for themselves. -/
def Plain (text : List Char) : Prop := ∀ c ∈ text, isPlain c = true

/-- **Where a reader is** in a table. -/
inductive Place where
  /-- Before a field. -/
  | fieldStart
  /-- In a field that is not between quotes. -/
  | plain
  /-- Between the quotes of a field. -/
  | quoted
  /-- After a quote that ends them, unless another one follows. -/
  | quote
  /-- After a carriage return, which a line feed has to follow. -/
  | lineEnd
  deriving DecidableEq

/-- **What a table has from a place on.** -/
structure Remainder where
  /-- The rest of the field. -/
  field : List Char
  /-- The other fields of its record. -/
  fields : List (List Char)
  /-- The other records. -/
  records : List (List (List Char))
  deriving DecidableEq

namespace Remainder

/-- With characters of the field before it. -/
def prepend (chars : List Char) (r : Remainder) : Remainder := { r with field := chars ++ r.field }

/-- With the end of another field before it. -/
def afterComma (r : Remainder) : Remainder := ⟨[], r.field :: r.fields, r.records⟩

/-- The end of the last field of a record, with other records to come. -/
def before (records : List (List (List Char))) : Remainder := ⟨[], [], records⟩

/-- The records, where this is all of them. -/
def table (r : Remainder) : List (List (List Char)) := (r.field :: r.fields) :: r.records

theorem prepend_afterComma (field : List Char) (r : Remainder) :
    r.afterComma.prepend field = ⟨field, r.field :: r.fields, r.records⟩ := by
  rw [prepend, afterComma, List.append_nil]

theorem prepend_before (field : List Char) (records : List (List (List Char))) :
    (before records).prepend field = ⟨field, [], records⟩ := by
  rw [prepend, before, List.append_nil]

end Remainder

/-- What a table has from the end of a record on, given what it has from the next
one on, if there is one. -/
def endRecord (rest : List Char) (next : Option Remainder) : Option Remainder :=
  if rest = [] then some (.before []) else next.map fun r => .before r.table

/-- **Reads a table from a place on.** Every record ends with a line feed, perhaps with
a carriage return before it. -/
def readFrom : Place → List Char → Option Remainder
  | _, [] => none
  | .quoted, c :: rest =>
    if c = '"' then readFrom .quote rest else (readFrom .quoted rest).map (.prepend [c])
  | .lineEnd, c :: rest =>
    if c = '\n' then endRecord rest (readFrom .fieldStart rest) else none
  | place, c :: rest =>
    if c = ',' then (readFrom .fieldStart rest).map .afterComma
    else if c = '\n' then endRecord rest (readFrom .fieldStart rest)
    else if c = '\r' then readFrom .lineEnd rest
    else if c = '"' then
      match place with
      | .fieldStart => readFrom .quoted rest
      | .quote => (readFrom .quoted rest).map (.prepend ['"'])
      | _ => none
    else if place = .quote then none
    else (readFrom .plain rest).map (.prepend [c])

/-- **Reads a table** as its records, each with its fields. -/
def read (text : List Char) : Option (List (List (List Char))) :=
  if text = [] then some [] else (readFrom .fieldStart text).map Remainder.table

theorem endRecord_eq (rest : List Char) :
    endRecord rest (readFrom .fieldStart rest) = (read rest).map .before := by
  unfold endRecord read
  split
  · rfl
  · rw [Option.map_map]
    rfl

theorem readFrom_comma (rest : List Char) :
    readFrom .plain (',' :: rest) = (readFrom .fieldStart rest).map .afterComma := rfl

theorem readFrom_newline (rest : List Char) :
    readFrom .plain ('\n' :: rest) = (read rest).map .before :=
  endRecord_eq rest

/-- After the quotes of a field, the field ends as it does without quotes. -/
theorem readFrom_quote {c : Char} (hc : c = ',' ∨ c = '\n') (rest : List Char) :
    readFrom .quote (c :: rest) = readFrom .plain (c :: rest) := by
  rcases hc with rfl | rfl <;> rfl

/-- Without a quote at its start, a field is not between quotes. -/
theorem readFrom_fieldStart {c : Char} (hc : c ≠ '"') (rest : List Char) :
    readFrom .fieldStart (c :: rest) = readFrom .plain (c :: rest) := by
  simp only [readFrom, if_neg hc]
  rfl

theorem isPlain_iff {c : Char} :
    isPlain c = true ↔ c ≠ ',' ∧ c ≠ '"' ∧ c ≠ '\r' ∧ c ≠ '\n' := by
  simp [isPlain, marks]

theorem eq_of_not_isPlain {c : Char} (hc : ¬isPlain c = true) :
    c = ',' ∨ c = '"' ∨ c = '\r' ∨ c = '\n' := by
  by_contra h
  simp only [not_or] at h
  exact hc (isPlain_iff.mpr h)

theorem readFrom_plain_cons {c : Char} (hc : isPlain c = true) (rest : List Char) :
    readFrom .plain (c :: rest) = (readFrom .plain rest).map (.prepend [c]) := by
  obtain ⟨hcomma, hquote, hreturn, hnewline⟩ := isPlain_iff.mp hc
  simp only [readFrom, if_neg hcomma, if_neg hnewline, if_neg hreturn, if_neg hquote]
  rfl

/-! ## Writing -/

/-- With each quote twice. -/
def doubled (field : List Char) : List Char :=
  field.flatMap fun c => if c = '"' then ['"', '"'] else [c]

theorem doubled_cons_of_ne {c : Char} (hc : c ≠ '"') (field : List Char) :
    doubled (c :: field) = c :: doubled field := by
  rw [doubled, List.flatMap_cons, if_neg hc]
  rfl

/-- **How a field may be written**: as it is, if all of it is plain, or between quotes
with its own quotes doubled. -/
inductive IsField (field : List Char) : List Char → Prop
  /-- As it is. -/
  | plain (h : Plain field) : IsField field field
  /-- Between quotes. -/
  | quoted : IsField field ('"' :: (doubled field ++ ['"']))

theorem readFrom_plain_append {field : List Char} (h : Plain field) (rest : List Char) :
    readFrom .plain (field ++ rest) = (readFrom .plain rest).map (.prepend field) := by
  induction field with
  | nil => exact Option.map_id'.symm
  | cons c field ih =>
    obtain ⟨hc, hfield⟩ := List.forall_mem_cons.mp h
    rw [List.cons_append, readFrom_plain_cons hc, ih hfield, Option.map_map]
    rfl

theorem readFrom_quoted_append (field rest : List Char) :
    readFrom .quoted (doubled field ++ '"' :: rest)
      = (readFrom .quote rest).map (.prepend field) := by
  induction field with
  | nil => exact Option.map_id'.symm
  | cons c field ih =>
    by_cases hc : c = '"'
    · subst hc
      show (readFrom .quoted (doubled field ++ '"' :: rest)).map (Remainder.prepend ['"']) = _
      rw [ih, Option.map_map]
      rfl
    · rw [doubled_cons_of_ne hc, List.cons_append, readFrom, if_neg hc, ih, Option.map_map]
      rfl

/-- **A written field is read**, up to the comma or the line feed after it. -/
theorem IsField.readFrom_append {field text : List Char} (h : IsField field text) {c : Char}
    (hc : c = ',' ∨ c = '\n') (rest : List Char) :
    readFrom .fieldStart (text ++ c :: rest)
      = (readFrom .plain (c :: rest)).map (.prepend field) := by
  cases h with
  | quoted =>
    show readFrom .quoted ((doubled field ++ ['"']) ++ c :: rest) = _
    rw [List.append_assoc, List.singleton_append, readFrom_quoted_append, readFrom_quote hc]
  | plain h =>
    rw [← readFrom_plain_append h]
    cases field with
    | nil => exact readFrom_fieldStart (by rcases hc with rfl | rfl <;> decide) rest
    | cons d field =>
      have hd := isPlain_iff.mp (h d List.mem_cons_self)
      exact readFrom_fieldStart hd.2.1 (field ++ c :: rest)

/-- A field with another one after it. -/
theorem IsField.readFrom_append_comma {field text : List Char} (h : IsField field text)
    (rest : List Char) :
    readFrom .fieldStart (text ++ ',' :: rest)
      = (readFrom .fieldStart rest).map fun r => ⟨field, r.field :: r.fields, r.records⟩ := by
  rw [h.readFrom_append (.inl rfl), readFrom_comma, Option.map_map]
  simp only [Function.comp_def, Remainder.prepend_afterComma]

/-- **How a record may be written**, which has a first field and perhaps others: with a
comma between each two fields and a line feed at the end. -/
inductive IsRecord : List Char → List (List Char) → List Char → Prop
  /-- The first field is the last. -/
  | last {field text : List Char} (h : IsField field text) : IsRecord field [] (text ++ ['\n'])
  /-- Another field follows. -/
  | cons {field text next rest : List Char} {fields : List (List Char)} (h : IsField field text)
    (hrest : IsRecord next fields rest) : IsRecord field (next :: fields) (text ++ ',' :: rest)

theorem IsRecord.readFrom_append {field text : List Char} {fields : List (List Char)}
    (h : IsRecord field fields text) (after : List Char) :
    readFrom .fieldStart (text ++ after)
      = (read after).map fun records => ⟨field, fields, records⟩ := by
  induction h with
  | last h =>
    rw [List.append_assoc, List.singleton_append, h.readFrom_append (.inr rfl), readFrom_newline,
      Option.map_map]
    simp only [Function.comp_def, Remainder.prepend_before]
  | cons h _ ih =>
    rw [List.append_assoc, List.cons_append, h.readFrom_append_comma, ih, Option.map_map]
    rfl

/-- **A written record is read**, whatever records come after it. -/
theorem IsRecord.read_append {field text : List Char} {fields : List (List Char)}
    (h : IsRecord field fields text) (after : List Char) :
    read (text ++ after) = (read after).map ((field :: fields) :: ·) := by
  have hne : text ++ after ≠ [] := by
    cases h <;> simp
  rw [read, if_neg hne, h.readFrom_append, Option.map_map]
  rfl

/-! ## Fields that are written as they are -/

/-- A character that is not plain ends the field, if the table can be read at all. -/
theorem field_eq_nil_of_not_isPlain {c : Char} {rest : List Char} {r : Remainder}
    (hc : ¬isPlain c = true) (h : readFrom .plain (c :: rest) = some r) : r.field = [] := by
  have hbefore : ∀ after, (read after).map Remainder.before = some r → r.field = [] := by
    intro after hr
    obtain ⟨records, -, rfl⟩ := Option.map_eq_some_iff.mp hr
    rfl
  rcases eq_of_not_isPlain hc with rfl | rfl | rfl | rfl
  · rw [readFrom_comma] at h
    obtain ⟨next, -, rfl⟩ := Option.map_eq_some_iff.mp h
    rfl
  · cases h
  · -- a carriage return ends the field only as part of a line break
    cases rest with
    | nil => cases h
    | cons d after =>
      have hd : (if d = '\n' then endRecord after (readFrom .fieldStart after) else none)
          = some r := h
      split at hd
      · exact hbefore after (endRecord_eq after ▸ hd)
      · cases hd
  · exact hbefore rest (readFrom_newline rest ▸ h)

/-- After the quotes of a field, the field ends, or the last of them was its own. -/
theorem field_eq_nil_of_readFrom_quote {c : Char} {rest : List Char} {r : Remainder}
    (hc : c ≠ '"') (h : readFrom .quote (c :: rest) = some r) : r.field = [] := by
  by_cases hplain : isPlain c = true
  · obtain ⟨hcomma, -, hreturn, hnewline⟩ := isPlain_iff.mp hplain
    simp only [readFrom, if_neg hcomma, if_neg hnewline, if_neg hreturn, if_neg hc] at h
    cases h
  · refine field_eq_nil_of_not_isPlain hplain (show readFrom .plain (c :: rest) = some r from ?_)
    rcases eq_of_not_isPlain hplain with rfl | rfl | rfl | rfl
    · exact h
    · exact absurd rfl hc
    · exact h
    · exact h

/-- What is read as it stands is plain. -/
theorem plain_of_readFrom_plain {field after : List Char} {r : Remainder}
    (h : readFrom .plain (field ++ '\n' :: after) = some r) (hr : r.field = field) :
    Plain field := by
  induction field generalizing r with
  | nil => exact nofun
  | cons c field ih =>
    by_cases hc : isPlain c = true
    · rw [List.cons_append, readFrom_plain_cons hc] at h
      obtain ⟨next, hnext, rfl⟩ := Option.map_eq_some_iff.mp h
      exact List.forall_mem_cons.mpr ⟨hc, ih hnext (List.cons.inj hr).2⟩
    · rw [field_eq_nil_of_not_isPlain hc h] at hr
      cases hr

/-- **What is read between quotes** stands there with its quotes doubled. -/
theorem exists_eq_doubled {text : List Char} {r : Remainder} :
    (readFrom .quoted text = some r → ∃ after, text = doubled r.field ++ '"' :: after)
      ∧ (readFrom .quote text = some r
        → ∃ after, '"' :: text = doubled r.field ++ '"' :: after) := by
  -- both places at once, as a quote leads from the one to the other
  induction text generalizing r with
  | nil => exact ⟨nofun, nofun⟩
  | cons c text ih =>
    by_cases hc : c = '"'
    · subst hc
      refine ⟨ih.2, fun h => ?_⟩
      -- the quote before and this one are a quote of the field
      obtain ⟨next, hnext, rfl⟩ := Option.map_eq_some_iff.mp
        (show (readFrom .quoted text).map (.prepend ['"']) = some r from h)
      obtain ⟨after, rfl⟩ := ih.1 hnext
      exact ⟨after, rfl⟩
    · constructor
      · intro h
        rw [readFrom, if_neg hc] at h
        obtain ⟨next, hnext, rfl⟩ := Option.map_eq_some_iff.mp h
        obtain ⟨after, rfl⟩ := ih.1 hnext
        exact ⟨after, congrArg (· ++ '"' :: after) (doubled_cons_of_ne hc next.field).symm⟩
      · intro h
        rw [field_eq_nil_of_readFrom_quote hc h]
        exact ⟨c :: text, rfl⟩

/-- A field that starts with a quote does not stand for itself: its quotes are doubled
and so never come to an end. -/
theorem replicate_append_doubled_ne (k : Nat) (field after rest : List Char) :
    List.replicate (k + 1) '"' ++ (doubled field ++ '"' :: after) ≠ field ++ '\n' :: rest := by
  induction field generalizing k with
  | nil => exact fun h => absurd (List.cons.inj h).1 (by decide)
  | cons c field ih =>
    intro h
    -- the field goes on with a quote, which is doubled: one more is left in front
    obtain ⟨rfl, htail⟩ := List.cons.inj h
    refine ih (k + 1) (Eq.trans ?_ htail)
    show _ = List.replicate k '"' ++ (List.replicate 2 '"' ++ (doubled field ++ '"' :: after))
    rw [← List.append_assoc (List.replicate k '"'), List.replicate_append_replicate]

/-- **A field that is written as it is** is read as it is exactly if it is plain. -/
theorem readFrom_last_iff {field after : List Char} {records : List (List (List Char))} :
    readFrom .fieldStart (field ++ '\n' :: after) = some ⟨field, [], records⟩
      ↔ Plain field ∧ read after = some records := by
  have hread : Plain field →
      (readFrom .fieldStart (field ++ '\n' :: after) = some ⟨field, [], records⟩
        ↔ read after = some records) := by
    intro h
    rw [(IsField.plain h).readFrom_append (.inr rfl), readFrom_newline, Option.map_map]
    simp only [Function.comp_def, Remainder.prepend_before, Option.map_eq_some_iff,
      Remainder.mk.injEq, true_and, exists_eq_right]
  refine ⟨fun h => ?_, fun ⟨hplain, hafter⟩ => (hread hplain).mpr hafter⟩
  have hplain : Plain field := by
    cases field with
    | nil => exact nofun
    | cons c field =>
      by_cases hc : c = '"'
      · subst hc
        obtain ⟨rest, hrest⟩ := exists_eq_doubled.1 (show readFrom .quoted _ = _ from h)
        exact absurd hrest.symm (replicate_append_doubled_ne 1 field rest after)
      · rw [List.cons_append, readFrom_fieldStart hc] at h
        exact plain_of_readFrom_plain h rfl
  exact ⟨hplain, (hread hplain).mp h⟩

/-! ## The lines of a table -/

/-- The names of the fields. -/
def header : List (List Char) :=
  ["Variables".toList, "Minterms".toList, "Dont Cares".toList, "Expression".toList]

end Csv

/-- **The fields of a problem**: its number of variables, its lists with a comma between
two numbers, and its expression, if there is one. -/
def Spec.fields (spec : Spec) : List (List Char) :=
  [(numeral spec.numVars).toList, (numerals "," spec.minterms).toList,
    (numerals "," spec.dontCares).toList, (spec.expression.getD "").toList]

namespace Csv

theorem isPlain_of_isDigit {c : Char} (h : c.isDigit = true) : isPlain c = true := by
  by_contra hc
  rcases eq_of_not_isPlain hc with rfl | rfl | rfl | rfl <;> exact absurd h (by decide)

theorem plain_numeral (n : Nat) : Plain (numeral n).toList := by
  intro c hc
  rcases (isNumeral_numeral n).eq_or_isDigit c hc with rfl | hdigit
  · rfl
  · exact isPlain_of_isDigit hdigit

/-- A text without quotes has none to double. -/
theorem doubled_eq_self {field : List Char} (h : '"' ∉ field) : doubled field = field := by
  induction field with
  | nil => rfl
  | cons c field ih =>
    rw [List.mem_cons, not_or] at h
    rw [doubled_cons_of_ne (Ne.symm h.1), ih h.2]

theorem doubled_numerals (ns : List Nat) :
    doubled (numerals "," ns).toList = (numerals "," ns).toList := by
  refine doubled_eq_self fun hquote => ?_
  rw [toList_numerals] at hquote
  rcases mem_of_mem_intercalate hquote with hquote | ⟨text, htext, hquote⟩
  · exact absurd hquote (by decide)
  · obtain ⟨n, -, rfl⟩ := List.mem_map.mp htext
    exact absurd (plain_numeral n _ hquote) (by decide)

/-- A list stands between quotes. -/
theorem isField_numerals (ns : List Nat) :
    IsField (numerals "," ns).toList ('"' :: ((numerals "," ns).toList ++ ['"'])) := by
  have h : IsField (numerals "," ns).toList _ := .quoted
  rwa [doubled_numerals] at h

theorem toList_csvLine (spec : Spec) (after : List Char) :
    spec.csvLine.toList ++ after
      = (numeral spec.numVars).toList
        ++ ',' :: ('"' :: ((numerals "," spec.minterms).toList ++ ['"'])
        ++ ',' :: ('"' :: ((numerals "," spec.dontCares).toList ++ ['"'])
        ++ ',' :: ((spec.expression.getD "").toList ++ '\n' :: after))) := by
  simp [Spec.csvLine, String.toList_append]

/-- **A line is read as its problem** exactly if the expression is plain, whatever lines
come after it. -/
theorem read_csvLine_append_iff {spec : Spec} {after : List Char}
    {records : List (List (List Char))} :
    read (spec.csvLine.toList ++ after) = some (spec.fields :: records)
      ↔ Plain (spec.expression.getD "").toList ∧ read after = some records := by
  have hne : spec.csvLine.toList ++ after ≠ [] := by
    rw [toList_csvLine]
    simp
  rw [read, if_neg hne, toList_csvLine,
    (IsField.plain (plain_numeral spec.numVars)).readFrom_append_comma,
    (isField_numerals spec.minterms).readFrom_append_comma,
    (isField_numerals spec.dontCares).readFrom_append_comma, Option.map_map, Option.map_map,
    Option.map_map, ← readFrom_last_iff]
  constructor
  · intro h
    obtain ⟨⟨field, fields, others⟩, hr, heq⟩ := Option.map_eq_some_iff.mp h
    cases heq
    exact hr
  · intro h
    rw [h]
    rfl

/-- **Lines are read as their problems** exactly if all expressions are plain. -/
theorem read_lines_iff {specs : List Spec} :
    read (specs.flatMap fun spec => spec.csvLine.toList) = some (specs.map Spec.fields)
      ↔ ∀ spec ∈ specs, Plain (spec.expression.getD "").toList := by
  induction specs with
  | nil => exact ⟨fun _ => nofun, fun _ => rfl⟩
  | cons spec rest ih =>
    rw [List.flatMap_cons, List.map_cons, read_csvLine_append_iff, ih, List.forall_mem_cons]

/-- The first line is a record with the names of the fields. -/
theorem read_header_append (after : List Char) :
    read (csvHeader.toList ++ after) = (read after).map (header :: ·) := by
  have h : IsRecord "Variables".toList
      ["Minterms".toList, "Dont Cares".toList, "Expression".toList] csvHeader.toList :=
    .cons (.plain (List.all_eq_true.mp rfl)) <| .cons (.plain (List.all_eq_true.mp rfl)) <|
      .cons (.plain (List.all_eq_true.mp rfl)) <| .last (.plain (List.all_eq_true.mp rfl))
  exact h.read_append after

theorem toList_csv (specs : List Spec) :
    (csv specs).toList
      = csvHeader.toList ++ specs.flatMap fun spec => spec.csvLine.toList := by
  rw [csv, String.toList_append, String.toList_join, List.flatMap_map]

/-! ## Exported expressions -/

theorem plain_termChars (p : Pattern) : Plain p.termChars := by
  have hname : ∀ k < maxVariables, isPlain (variableName k) = true := by decide
  intro c hc
  rcases Expression.mem_termChars hc with rfl | rfl | ⟨k, hk, rfl⟩
  · rfl
  · rfl
  · exact hname k hk

/-- **A written sum of products is plain.** -/
theorem plain_render (ps : List Pattern) : Plain (Expression.render ps).toList := by
  intro c hc
  by_cases hnil : ps = []
  · subst hnil
    rw [List.mem_singleton.mp (show c ∈ ['0'] from hc)]
    rfl
  · rw [Expression.toList_render hnil] at hc
    rcases mem_of_mem_intercalate hc with hc | ⟨text, htext, hc⟩
    · exact List.all_eq_true.mp (show [' ', '+', ' '].all isPlain = true from rfl) c hc
    · obtain ⟨p, -, rfl⟩ := List.mem_map.mp htext
      exact plain_termChars p c hc

/-- The expression on a sheet is plain. -/
theorem plain_expression {settings : Settings} {spec : Spec} {v : Sheet}
    (h : visualize settings spec = .ok v) : Plain v.expression.toList := by
  have hvalid := visualize_eq_ok_iff.mp ⟨v, h⟩
  obtain ⟨v', a, hv, ha, hexpression, -⟩ := visualize_spec settings hvalid
  obtain ⟨a', ha', -, -, hrender, -⟩ :=
    minimize_spec (Spec.valid_normalize.mpr hvalid) settings.solver.exactCoverLimit
  obtain rfl := Except.ok.inj (h.symm.trans hv)
  obtain rfl := Except.ok.inj (ha.symm.trans ha')
  rw [hexpression, hrender]
  exact plain_render _

/-! ## Tables -/

/-- The header and the lines are read one after the other. -/
theorem read_csv_eq_iff {specs : List Spec} :
    read (csv specs).toList = some (header :: specs.map Spec.fields)
      ↔ ∀ spec ∈ specs, Plain (spec.expression.getD "").toList := by
  rw [toList_csv, read_header_append, ← read_lines_iff, Option.map_eq_some_iff]
  simp only [List.cons.injEq, true_and, exists_eq_right]

/-- **What a batch exports is read back**: the expressions in it are written by the
minimizer. -/
theorem read_outcomesCsv (settings : Settings) (specs : List Spec) :
    read (outcomesCsv (solveBatch settings specs settings.minimizer)).toList
      = some (header :: (specs.filterMap fun spec =>
        (visualize settings spec).toOption.map Sheet.spec).map Spec.fields) := by
  rw [outcomesCsv_solveBatch, read_csv_eq_iff]
  intro spec hspec
  obtain ⟨source, -, hsource⟩ := List.mem_filterMap.mp hspec
  obtain ⟨v, hv, rfl⟩ := Option.map_eq_some_iff.mp hsource
  cases hsheet : visualize settings source with
  | error e =>
    rw [hsheet] at hv
    cases hv
  | ok v' =>
    rw [hsheet] at hv
    cases hv
    exact plain_expression hsheet

/-- **A table can be read back** exactly if each expression in it is plain: the reader
then gives the names of the fields, and the fields of each problem in the order of
the problems. What a batch of the problems exports can be read back anyway. -/
theorem read_csv_iff (specs : List Spec) :
    (read (csv specs).toList = some (header :: specs.map Spec.fields)
        ↔ ∀ spec ∈ specs, Plain (spec.expression.getD "").toList)
      ∧ ∀ settings : Settings,
        read (outcomesCsv (solveBatch settings specs settings.minimizer)).toList
          = some (header :: (specs.filterMap fun spec =>
            (visualize settings spec).toOption.map Sheet.spec).map Spec.fields) :=
  ⟨read_csv_eq_iff, fun settings => read_outcomesCsv settings specs⟩

/-- A problem whose expression has a comma. -/
def tornSpec : Spec := ⟨2, [3], [], some "A, B"⟩

/-- **An expression with a comma is torn apart**: its table has the header and a record
of five fields. -/
theorem exists_csv_torn :
    ∃ fields : List (List Char),
      read (csv [tornSpec]).toList = some [header, fields] ∧ fields.length = 5
        ∧ fields ≠ tornSpec.fields :=
  ⟨[['2'], ['3'], [], ['A'], [' ', 'B']], by decide +kernel, rfl, by decide +kernel⟩

end Csv

end Karnaugh
