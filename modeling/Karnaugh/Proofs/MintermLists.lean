import Karnaugh.Spec.Minterms

/-!
# The two readers of a list

A list of minterms is read in two ways. One reader refuses a list with an entry that is
no number, the other passes over such entries. So they differ only in what they pass
over: the strict one passes over blank entries (`readMinterms_eq_ok_iff`), the lenient
one over whatever is no number that fits a word (`lenientMinterms_eq_iff`). In both, what
is left are the numbers that stand in the entries, in their order (`ListsPast`). Where
the strict one fails, it names the first entry that it could neither read nor pass over
(`refuses_of_readMinterms`).

As a blank entry is no number, the lenient reader passes over everything that the strict
one does. That is why they agree on each list that the strict one accepts.
-/

namespace Karnaugh

open Text

/-! ## Entries -/

/-- **A number is written**, with blanks around its numeral. -/
def Spaced (n : Nat) (entry : List Char) : Prop :=
  ∃ before text after, (∀ c ∈ before, isBlank c = true) ∧ (∀ c ∈ after, isBlank c = true)
    ∧ IsNumeral n text ∧ entry = before ++ text ++ after

/-- **A blank entry**: there is nothing in it but blanks. -/
def IsBlankEntry (entry : List Char) : Prop :=
  ∀ c ∈ entry, isBlank c = true

/-- **No number** that fits a word is written in an entry. -/
def HasNoNumber (entry : List Char) : Prop :=
  ∀ n < wordBound, ¬Spaced n entry

/-- A numeral may be written without blanks. -/
theorem spaced_numeral (n : Nat) : Spaced n (numeral n).toList :=
  ⟨[], _, [], List.forall_mem_nil _, List.forall_mem_nil _, isNumeral_numeral n, by simp⟩

/-- Blanks, digits and signs are all that there is in the entry of a number. -/
theorem Spaced.not_mem {n : Nat} {entry : List Char} (h : Spaced n entry) {c : Char}
    (hblank : isBlank c = false) (hplus : c ≠ '+') (hdigit : c.isDigit = false) : c ∉ entry := by
  obtain ⟨before, text, after, hbefore, hafter, htext, rfl⟩ := h
  have hblank : ¬isBlank c = true := ne_true_of_eq_false hblank
  have hdigit : ¬c.isDigit = true := ne_true_of_eq_false hdigit
  intro hmem
  rcases List.mem_append.mp hmem with hmem | hmem
  · rcases List.mem_append.mp hmem with hmem | hmem
    · exact hblank (hbefore c hmem)
    · exact (htext.eq_or_isDigit c hmem).elim hplus hdigit
  · exact hblank (hafter c hmem)

/-- **What is read from an entry** is the number that is written there. -/
theorem readNumeral_trim_eq_ok_iff {bound n : Nat} {entry : List Char} :
    readNumeral bound (trim entry) = .ok n ↔ Spaced n entry ∧ n < bound := by
  rw [readNumeral_eq_ok_iff]
  refine and_congr_left fun _ => ⟨fun h => ?_, ?_⟩
  · obtain ⟨before, after, hbefore, hafter, hentry⟩ := exists_eq_append_trim entry
    exact ⟨before, _, after, hbefore, hafter, h, hentry⟩
  · rintro ⟨before, text, after, hbefore, hafter, htext, rfl⟩
    have hplain : ∀ c ∈ text, isBlank c = false := by
      intro c hc
      rcases htext.eq_or_isDigit c hc with rfl | hdigit
      · rfl
      · exact not_isBlank_of_isDigit hdigit
    rw [trim_append hbefore htext.ne_nil hplain hafter]
    exact htext

theorem IsBlankEntry.hasNoNumber {entry : List Char} (h : IsBlankEntry entry) :
    HasNoNumber entry := by
  intro n hn hspaced
  have hread := readNumeral_trim_eq_ok_iff.mpr ⟨hspaced, hn⟩
  rw [trim_eq_nil_iff.mpr h] at hread
  cases hread

/-! ## Lists -/

/-- **Entries list numbers, past others**: the numbers are those that stand in the
entries, in their order, and every other entry is one to be skipped. -/
inductive ListsPast (Skip : List Char → Prop) : List Nat → List (List Char) → Prop where
  /-- No entry lists no number. -/
  | nil : ListsPast Skip [] []
  /-- An entry is the first number. -/
  | number {n : Nat} {entry : List Char} (h : Spaced n entry) (hn : n < wordBound)
      {ns : List Nat} {entries : List (List Char)} (rest : ListsPast Skip ns entries) :
      ListsPast Skip (n :: ns) (entry :: entries)
  /-- An entry is skipped. -/
  | skipped {entry : List Char} (h : Skip entry) {ns : List Nat} {entries : List (List Char)}
      (rest : ListsPast Skip ns entries) : ListsPast Skip ns (entry :: entries)

section

variable {Skip Skip' : List Char → Prop} {ns : List Nat} {entries : List (List Char)}

theorem ListsPast.mono (h : ListsPast Skip ns entries)
    (hskip : ∀ entry, Skip entry → Skip' entry) : ListsPast Skip' ns entries := by
  induction h with
  | nil => exact .nil
  | number hspaced hn _ ih => exact .number hspaced hn ih
  | skipped hentry _ ih => exact .skipped (hskip _ hentry) ih

/-- **Numbers are listed** unless an entry is neither a number nor one to be skipped. -/
theorem exists_listsPast_iff :
    (∃ ns, ListsPast Skip ns entries) ↔ ∀ entry ∈ entries, HasNoNumber entry → Skip entry := by
  constructor
  · rintro ⟨ns, h⟩
    induction h with
    | nil => exact List.forall_mem_nil _
    | number hspaced hn _ ih =>
      exact List.forall_mem_cons.mpr ⟨fun hnone => absurd hspaced (hnone _ hn), ih⟩
    | skipped hentry _ ih => exact List.forall_mem_cons.mpr ⟨fun _ => hentry, ih⟩
  · intro h
    induction entries with
    | nil => exact ⟨[], .nil⟩
    | cons entry rest ih =>
      obtain ⟨hentry, hrest⟩ := List.forall_mem_cons.mp h
      obtain ⟨ns, hns⟩ := ih hrest
      by_cases hnumber : ∃ n < wordBound, Spaced n entry
      · obtain ⟨n, hn, hspaced⟩ := hnumber
        exact ⟨n :: ns, .number hspaced hn hns⟩
      · exact ⟨ns, .skipped (hentry fun n hn hspaced => hnumber ⟨n, hn, hspaced⟩) hns⟩

/-- Where every entry that is skipped is blank, a comma can only stand between
entries. -/
theorem ListsPast.comma_not_mem (h : ListsPast IsBlankEntry ns entries) :
    ∀ entry ∈ entries, ',' ∉ entry := by
  induction h with
  | nil => exact List.forall_mem_nil _
  | number hspaced _ _ ih =>
    exact List.forall_mem_cons.mpr ⟨hspaced.not_mem rfl (by decide) rfl, ih⟩
  | skipped hblank _ ih =>
    have hcomma : ¬isBlank ',' = true := by decide
    exact List.forall_mem_cons.mpr ⟨fun hmem => hcomma (hblank _ hmem), ih⟩

/-! ## The lenient reader -/

theorem ListsPast.filterMap_read (h : ListsPast HasNoNumber ns entries) :
    (entries.map trim).filterMap (fun entry => (readNumeral wordBound entry).toOption) = ns := by
  induction h with
  | nil => rfl
  | @number n entry hspaced hn _ _ _ ih =>
    rw [List.map_cons, List.filterMap_cons, readNumeral_trim_eq_ok_iff.mpr ⟨hspaced, hn⟩]
    exact congrArg (n :: ·) ih
  | @skipped entry hnone _ _ _ ih =>
    rw [List.map_cons, List.filterMap_cons]
    cases hread : readNumeral wordBound (trim entry) with
    | error fault => exact ih
    | ok n =>
      obtain ⟨hspaced, hn⟩ := readNumeral_trim_eq_ok_iff.mp hread
      exact absurd hspaced (hnone n hn)

/-- **The lenient reader** passes over what is no number. -/
theorem lenientMinterms_eq_iff {text : List Char} :
    lenientMinterms text = ns ↔ ListsPast HasNoNumber ns (split ',' text) := by
  constructor
  · rintro rfl
    obtain ⟨ns, hns⟩ := exists_listsPast_iff.mpr fun entry (_ : entry ∈ split ',' text) => id
    rw [lenientMinterms, listEntries, hns.filterMap_read]
    exact hns
  · exact ListsPast.filterMap_read

/-! ## The strict reader -/

/-- What the strict reader makes of entries with blanks around them. -/
def readSpaced (entries : List (List Char)) : Except EntryFault (List Nat) :=
  readEntries ((entries.map trim).filter fun entry => !entry.isEmpty)

theorem readMinterms_eq (text : String) :
    readMinterms text = readSpaced (split ',' text.toList) := rfl

theorem readSpaced_of_isBlankEntry {entry : List Char} (h : IsBlankEntry entry)
    (rest : List (List Char)) : readSpaced (entry :: rest) = readSpaced rest := by
  rw [readSpaced, List.map_cons, trim_eq_nil_iff.mpr h, List.filter_cons_of_neg (by simp)]
  rfl

theorem readSpaced_of_not_isBlankEntry {entry : List Char} (h : ¬IsBlankEntry entry)
    (rest : List (List Char)) :
    readSpaced (entry :: rest)
      = match readNumeral wordBound (trim entry) with
        | .error fault => .error ⟨String.ofList (trim entry), fault⟩
        | .ok n => (readSpaced rest).map (n :: ·) := by
  have hne : trim entry ≠ [] := fun heq => h (trim_eq_nil_iff.mp heq)
  rw [readSpaced, List.map_cons, List.filter_cons_of_pos (by simpa using hne), readEntries]
  rfl

/-- **The strict reader reads** entries that list numbers past blank ones. -/
theorem ListsPast.readSpaced_eq (h : ListsPast IsBlankEntry ns entries) :
    readSpaced entries = .ok ns := by
  induction h with
  | nil => rfl
  | @number n entry hspaced hn _ rest _ ih =>
    have hblank : ¬IsBlankEntry entry := fun hblank => hblank.hasNoNumber n hn hspaced
    rw [readSpaced_of_not_isBlankEntry hblank, readNumeral_trim_eq_ok_iff.mpr ⟨hspaced, hn⟩, ih]
    rfl
  | skipped hblank _ ih => rw [readSpaced_of_isBlankEntry hblank, ih]

/-- **An entry is refused**: it is the first that is neither blank nor a number, and the
fault tells it and what is wrong with it. -/
def Refuses (fault : EntryFault) (entries : List (List Char)) : Prop :=
  ∃ ns before entry after, entries = before ++ entry :: after ∧ ListsPast IsBlankEntry ns before
    ∧ ¬IsBlankEntry entry ∧ fault.entry = String.ofList (trim entry)
    ∧ readNumeral wordBound (trim entry) = .error fault.fault

/-- **The strict reader** lists the numbers past blank entries, or refuses an entry. -/
theorem readSpaced_spec (entries : List (List Char)) :
    (∃ ns, readSpaced entries = .ok ns ∧ ListsPast IsBlankEntry ns entries)
      ∨ ∃ fault, readSpaced entries = .error fault ∧ Refuses fault entries := by
  induction entries with
  | nil => exact .inl ⟨[], rfl, .nil⟩
  | cons entry rest ih =>
    by_cases hblank : IsBlankEntry entry
    · rw [readSpaced_of_isBlankEntry hblank]
      rcases ih with ⟨ns, hread, hns⟩ | ⟨fault, hread, ns, before, refused, after, rfl, hns, h⟩
      · exact .inl ⟨ns, hread, .skipped hblank hns⟩
      · exact .inr ⟨fault, hread, ns, entry :: before, refused, after, rfl, .skipped hblank hns, h⟩
    · rw [readSpaced_of_not_isBlankEntry hblank]
      cases hentry : readNumeral wordBound (trim entry) with
      | error why => exact .inr ⟨_, rfl, [], [], entry, rest, rfl, .nil, hblank, rfl, hentry⟩
      | ok n =>
        obtain ⟨hspaced, hn⟩ := readNumeral_trim_eq_ok_iff.mp hentry
        rcases ih with ⟨ns, hread, hns⟩ | ⟨fault, hread, ns, before, refused, after, rfl, hns, h⟩
        · exact .inl ⟨n :: ns, by rw [hread]; rfl, .number hspaced hn hns⟩
        · exact .inr ⟨fault, by rw [hread]; rfl, n :: ns, entry :: before, refused, after, rfl,
            .number hspaced hn hns, h⟩

end

/-- **What is read** are the numbers past blank entries. -/
theorem readMinterms_eq_ok_iff {text : String} {ns : List Nat} :
    readMinterms text = .ok ns ↔ ListsPast IsBlankEntry ns (split ',' text.toList) := by
  rw [readMinterms_eq]
  constructor
  · intro h
    rcases readSpaced_spec (split ',' text.toList) with ⟨ms, hread, hms⟩ | ⟨fault, hread, -⟩
    · obtain rfl := Except.ok.inj (h.symm.trans hread)
      exact hms
    · cases h.symm.trans hread
  · exact ListsPast.readSpaced_eq

/-- **Where nothing is read**, an entry was refused. -/
theorem refuses_of_readMinterms {text : String} {fault : EntryFault}
    (h : readMinterms text = .error fault) : Refuses fault (split ',' text.toList) := by
  rw [readMinterms_eq] at h
  rcases readSpaced_spec (split ',' text.toList) with ⟨ns, hread, -⟩ | ⟨fault', hread, hrefuses⟩
  · cases h.symm.trans hread
  · obtain rfl := Except.error.inj (h.symm.trans hread)
    exact hrefuses

/-- The strict reader fails on an entry that is neither blank nor a number. -/
theorem exists_readMinterms_eq_error_iff {text : String} :
    (∃ fault, readMinterms text = .error fault)
      ↔ ∃ entry ∈ split ',' text.toList, ¬IsBlankEntry entry ∧ HasNoNumber entry := by
  constructor
  · rintro ⟨fault, h⟩
    obtain ⟨-, before, entry, after, hsplit, -, hblank, -, hentry⟩ := refuses_of_readMinterms h
    refine ⟨entry, hsplit ▸ List.mem_append_right before List.mem_cons_self, hblank, ?_⟩
    intro n hn hspaced
    cases hentry.symm.trans (readNumeral_trim_eq_ok_iff.mpr ⟨hspaced, hn⟩)
  · rintro ⟨entry, hentry, hblank, hnumber⟩
    cases hread : readMinterms text with
    | error fault => exact ⟨fault, rfl⟩
    | ok ns =>
      have hall := exists_listsPast_iff.mp ⟨ns, readMinterms_eq_ok_iff.mp hread⟩
      exact absurd (hall entry hentry hnumber) hblank

/-- **The lenient reader agrees** where the strict one accepts. -/
theorem lenientMinterms_eq_of_readMinterms {text : String} {ns : List Nat}
    (h : readMinterms text = .ok ns) : lenientMinterms text.toList = ns :=
  lenientMinterms_eq_iff.mpr
    ((readMinterms_eq_ok_iff.mp h).mono fun _ hblank => hblank.hasNoNumber)

/-- **Numbers written with blanks and blank entries** are read back. -/
theorem readMinterms_of_listsPast {text : String} {ns : List Nat} {entries : List (List Char)}
    (h : ListsPast IsBlankEntry ns entries) (htext : text.toList = [','].intercalate entries) :
    readMinterms text = .ok ns := by
  rw [readMinterms_eq_ok_iff, htext]
  by_cases hnil : entries = []
  · -- no entry at all is written as one that is blank
    subst hnil
    exact .skipped (List.forall_mem_nil _) h
  · rw [split_intercalate hnil h.comma_not_mem]
    exact h

/-- **What the two readers make of a list.** Its entries are what stands between its
commas. The lenient reader takes the numbers that stand in them and fit a word, and
passes over all other entries; the strict one fails exactly if one of these is not blank,
and otherwise reads the same numbers. So whatever numbers are written, with blanks around
them and blank entries among them, both readers read them back. -/
theorem readMinterms_reads (text : String) :
    (∃ entries, IsList ',' entries text.toList
        ∧ ListsPast HasNoNumber (lenientMinterms text.toList) entries
        ∧ ((∃ fault, readMinterms text = .error fault)
          ↔ ∃ entry ∈ entries, ¬IsBlankEntry entry ∧ HasNoNumber entry))
      ∧ (∀ ns, readMinterms text = .ok ns → lenientMinterms text.toList = ns)
      ∧ ∀ ns entries, ListsPast IsBlankEntry ns entries →
          text.toList = [','].intercalate entries →
          readMinterms text = .ok ns ∧ lenientMinterms text.toList = ns := by
  refine ⟨⟨split ',' text.toList, isList_split ',' text.toList, lenientMinterms_eq_iff.mp rfl,
    exists_readMinterms_eq_error_iff⟩, fun ns => lenientMinterms_eq_of_readMinterms,
    fun ns entries h htext => ?_⟩
  have hread := readMinterms_of_listsPast h htext
  exact ⟨hread, lenientMinterms_eq_of_readMinterms hread⟩

/-- A list with a sign, leading zeros, blanks and blank entries. -/
def spacedList : String := " 0,+1,,007 , "

/-- The theorem on this list. -/
theorem readMinterms_reads_spacedList :
    ListsPast IsBlankEntry [0, 1, 7] [[' ', '0'], ['+', '1'], [], ['0', '0', '7', ' '], [' ']]
      ∧ readMinterms spacedList = .ok [0, 1, 7]
      ∧ lenientMinterms spacedList.toList = [0, 1, 7] := by
  have hnone : ∀ c ∈ ([] : List Char), isBlank c = true := List.forall_mem_nil _
  have hblank : ∀ c ∈ [' '], isBlank c = true := List.forall_mem_singleton.mpr rfl
  have hzero : Spaced 0 [' ', '0'] := ⟨[' '], ['0'], [], hblank, hnone, isNumeral_numeral 0, rfl⟩
  have hone : Spaced 1 ['+', '1'] :=
    ⟨[], ['+', '1'], [], hnone, hnone,
      ⟨['1'], .inr rfl, List.cons_ne_nil _ _, List.all_eq_true.mp rfl, rfl⟩, rfl⟩
  have hseven : Spaced 7 ['0', '0', '7', ' '] :=
    ⟨[], ['0', '0', '7'], [' '], hnone, hblank,
      ⟨['0', '0', '7'], .inl rfl, List.cons_ne_nil _ _, List.all_eq_true.mp rfl, rfl⟩, rfl⟩
  have hlist : ListsPast IsBlankEntry [0, 1, 7]
      [[' ', '0'], ['+', '1'], [], ['0', '0', '7', ' '], [' ']] :=
    .number hzero (by decide) (.number hone (by decide) (.skipped hnone
      (.number hseven (by decide) (.skipped hblank .nil))))
  exact ⟨hlist, (readMinterms_reads spacedList).2.2 _ _ hlist (by decide)⟩

end Karnaugh
