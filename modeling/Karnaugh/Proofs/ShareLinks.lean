import Mathlib.Data.List.TakeWhile
import Karnaugh.Proofs.Escapes
import Karnaugh.Proofs.MintermLists
import Karnaugh.Spec.Share

/-!
# Links to a problem

A problem is written as one query, but many links lead to it: the query may stand
in a longer link, its parameters may come in another order and among others,
blanks may have got around the numbers, entries that are no numbers into the lists,
and characters may have been escaped. This module says which links these are
(`Spec.LinkedBy`), and that each of them gives the problem back, without its
expression (`Spec.ofQuery_linkedBy`).

The link is taken apart in the order in which it is read. An entry is read as the
number that is written there, and as nothing if it is idle, so a list is read as what
it lists (`Lists.lenientMinterms_intercalate`). A parameter is read as what its
escapes stand for (`Parameter.WrittenAs.spec`), and says what the problem is, or
nothing (`Parameter.Says`). Whatever the order, parameters that all say the same
problem leave it behind (`QueryState.foldlM_read_of_says`).
-/

namespace Karnaugh

open Text

/-! ## Lists -/

/-- **The characters that take a query apart.** -/
def queryMarks : List Char := [',', '&', '?', '%']

/-- **An idle entry**: it is empty, or for another reason no number that fits a word,
and has no character that takes a query apart. -/
def Idle (entry : List Char) : Prop :=
  (∀ n < wordBound, ¬Spaced n entry) ∧ ∀ c ∈ queryMarks, c ∉ entry

/-- **Entries list numbers**: those of them that are not idle are the numbers, in
their order. -/
inductive Lists : List Nat → List (List Char) → Prop where
  /-- No entry lists no number. -/
  | nil : Lists [] []
  /-- An entry is the first number. -/
  | number {n : Nat} {entry : List Char} (h : Spaced n entry) {ns : List Nat}
      {entries : List (List Char)} (rest : Lists ns entries) : Lists (n :: ns) (entry :: entries)
  /-- An entry does not count. -/
  | idle {entry : List Char} (h : Idle entry) {ns : List Nat} {entries : List (List Char)}
      (rest : Lists ns entries) : Lists ns (entry :: entries)

theorem lists_numerals (ns : List Nat) : Lists ns (ns.map fun n => (numeral n).toList) := by
  induction ns with
  | nil => exact .nil
  | cons n rest ih => exact .number (spaced_numeral n) ih

/-- Blanks, digits and signs do not take a query apart. -/
theorem not_mem_spaced {n : Nat} {entry : List Char} (h : Spaced n entry) :
    ∀ c ∈ queryMarks, c ∉ entry := by
  intro c hc
  obtain ⟨hblank, hplus, hdigit⟩ : isBlank c = false ∧ c ≠ '+' ∧ c.isDigit = false := by
    simp only [queryMarks, List.mem_cons, List.not_mem_nil, or_false] at hc
    rcases hc with rfl | rfl | rfl | rfl <;> decide
  exact h.not_mem hblank hplus hdigit

namespace Lists

variable {ns : List Nat} {entries : List (List Char)}

theorem not_mem (h : Lists ns entries) : ∀ entry ∈ entries, ∀ c ∈ queryMarks, c ∉ entry := by
  induction h with
  | nil => exact fun entry hentry => absurd hentry List.not_mem_nil
  | number hspaced _ ih => exact List.forall_mem_cons.mpr ⟨not_mem_spaced hspaced, ih⟩
  | idle hidle _ ih => exact List.forall_mem_cons.mpr ⟨hidle.2, ih⟩

/-- Of the marks, a list written in a row has the commas only. -/
theorem not_mem_intercalate (h : Lists ns entries) {c : Char} (hc : c ∈ queryMarks)
    (hcomma : c ≠ ',') : c ∉ [','].intercalate entries := by
  intro hmem
  rcases mem_of_mem_intercalate hmem with hmem | ⟨entry, hentry, hmem⟩
  · exact hcomma (List.mem_singleton.mp hmem)
  · exact h.not_mem entry hentry c hc hmem

/-- The numbers are listed past the idle entries, if they fit words. -/
theorem listsPast (h : Lists ns entries) (hns : ∀ n ∈ ns, n < wordBound) :
    ListsPast HasNoNumber ns entries := by
  induction h with
  | nil => exact .nil
  | number hspaced _ ih =>
    obtain ⟨hn, hrest⟩ := List.forall_mem_cons.mp hns
    exact .number hspaced hn (ih hrest)
  | idle hidle _ ih => exact .skipped hidle.1 (ih hns)

/-- **A list is read as what it lists.** -/
theorem lenientMinterms_intercalate (h : Lists ns entries) (hns : ∀ n ∈ ns, n < wordBound) :
    lenientMinterms ([','].intercalate entries) = ns := by
  by_cases hnil : entries = []
  · -- no entry at all is written as one that is empty
    subst hnil
    cases h
    rfl
  · rw [lenientMinterms_eq_iff, split_intercalate hnil fun entry hentry =>
      h.not_mem entry hentry ',' List.mem_cons_self]
    exact h.listsPast hns

end Lists

/-! ## Parameters -/

/-- **A whole piece** of a query: no character in it would part it from the rest. -/
def Whole (piece : List Char) : Prop :=
  '&' ∉ piece ∧ '?' ∉ piece

/-- **A stray piece**: any other parameter that may stand in a query. Its name, which
ends where an equals sign is, means nothing. -/
def Stray (piece : List Char) : Prop :=
  Whole piece ∧ piece.takeWhile (· != '=') ∉ [['v'], ['m'], ['d']]

/-- **A parameter is written**: its name, an equals sign, and its value with some
characters escaped. -/
def Parameter.WrittenAs (p : Parameter) (piece : List Char) : Prop :=
  ∃ written, Escaped p.value written ∧ piece = p.name ++ '=' :: written

/-- Escaping keeps a value whole. -/
theorem Whole.of_escaped {value written : List Char} (h : Whole value)
    (hwritten : Escaped value written) : Whole written := by
  have hnew : ∀ c, c ∉ value → c ≠ '%' → c.isAlphanum = false → c ∉ written := by
    intro c hvalue hpercent hdigit hmem
    rcases hwritten.mem_or c hmem with hmem | hmem | hmem
    · exact hvalue hmem
    · exact hpercent hmem
    · exact absurd hmem (by rw [hdigit]; exact Bool.false_ne_true)
  exact ⟨hnew '&' h.1 (by decide) rfl, hnew '?' h.2 (by decide) rfl⟩

/-- **A parameter is read from the piece** that it is written as. -/
theorem Parameter.WrittenAs.spec {p : Parameter} {piece : List Char} (h : p.WrittenAs piece)
    (hname : Whole p.name) (hequals : '=' ∉ p.name) (hvalue : Whole p.value) :
    Whole piece ∧ Parameter.ofPiece piece = p := by
  obtain ⟨written, hwritten, rfl⟩ := h
  have hwhole := hvalue.of_escaped hwritten
  refine ⟨⟨?_, ?_⟩, ?_⟩
  · simp [hname.1, hwhole.1]
  · simp [hname.2, hwhole.2]
  · rw [ofPiece, splitOnce_append hequals]
    exact congrArg (Parameter.mk p.name) (percentDecode_of_escaped hwritten)

theorem Parameter.name_ofPiece (piece : List Char) :
    (Parameter.ofPiece piece).name = piece.takeWhile (· != '=') := by
  have hplain : ∀ {text : List Char}, '=' ∉ text → ∀ c ∈ text, (c != '=') = true := by
    intro text htext c hc
    exact bne_iff_ne.mpr fun heq => htext (heq ▸ hc)
  by_cases hmem : '=' ∈ piece
  · obtain ⟨name, rest, rfl, hname⟩ := List.eq_append_cons_of_mem hmem
    rw [ofPiece, splitOnce_append hname, List.takeWhile_append_of_pos (hplain hname),
      List.takeWhile_cons_of_neg (by decide), List.append_nil]
  · rw [ofPiece, splitOnce_of_not_mem hmem, List.takeWhile_eq_self_iff.mpr (hplain hmem)]

/-- The parameters that the pieces of a query hold; the empty ones hold
none. -/
def piecesRead (pieces : List (List Char)) : List Parameter :=
  (pieces.filter fun piece => !piece.isEmpty).map Parameter.ofPiece

/-- **The pieces of a query are read one by one.** -/
theorem queryParameters_intercalate {pieces : List (List Char)} (hne : pieces ≠ [])
    (h : ∀ piece ∈ pieces, Whole piece) :
    queryParameters (['&'].intercalate pieces) = piecesRead pieces := by
  rw [queryParameters, split_intercalate hne fun piece hpiece => (h piece hpiece).1, piecesRead]

/-! ## What a query says -/

/-- **A parameter says what a problem is**, or nothing. -/
structure Parameter.Says (p : Parameter) (spec : Spec) : Prop where
  /-- The number of variables, if it is about that. -/
  numVars : p.name = ['v'] → readNumeral wordBound (trim p.value) = .ok spec.numVars
  /-- The minterms. -/
  minterms : p.name = ['m'] → lenientMinterms p.value = spec.minterms
  /-- The don't-cares. -/
  dontCares : p.name = ['d'] → lenientMinterms p.value = spec.dontCares

namespace QueryState

/-- **What is known once a problem has been told** under these names. -/
def told (q : QueryState) (spec : Spec) (names : List (List Char)) : QueryState where
  numVars := if ['v'] ∈ names then some spec.numVars else q.numVars
  minterms := if ['m'] ∈ names then some spec.minterms else q.minterms
  dontCares := if ['d'] ∈ names then spec.dontCares else q.dontCares

theorem told_cons (q : QueryState) (spec : Spec) (name : List Char) (names : List (List Char)) :
    q.told spec (name :: names) = (q.told spec [name]).told spec names := by
  have hif : ∀ {α : Type} (key : List Char) (new old : α),
      (if key ∈ name :: names then new else old)
        = if key ∈ names then new else if key ∈ [name] then new else old := by
    intro α key new old
    by_cases hmem : key ∈ names
    · rw [if_pos hmem, if_pos (List.mem_cons_of_mem name hmem)]
    · simp only [List.mem_cons, hmem, or_false, if_false, List.not_mem_nil]
  unfold told
  rw [hif, hif, hif]

/-- **Everything is known** once the names of what there is have been heard. -/
theorem told_empty {spec : Spec} {names : List (List Char)} (hv : ['v'] ∈ names)
    (hm : ['m'] ∈ names) (hd : ['d'] ∈ names ∨ spec.dontCares = []) :
    empty.told spec names = ⟨some spec.numVars, some spec.minterms, spec.dontCares⟩ := by
  have hdontCares : (if ['d'] ∈ names then spec.dontCares else []) = spec.dontCares := by
    split
    · rfl
    · exact (hd.resolve_left ‹_›).symm
  unfold told
  rw [if_pos hv, if_pos hm]
  exact congrArg _ hdontCares

/-- **One parameter** tells what it is about. -/
theorem read_of_says {p : Parameter} {spec : Spec} (h : p.Says spec) (q : QueryState) :
    q.read p = .ok (q.told spec [p.name]) := by
  unfold read told
  simp only [List.mem_singleton, eq_comm (b := p.name)]
  by_cases hv : p.name = ['v']
  · simp [hv, h.numVars hv]
  · by_cases hm : p.name = ['m']
    · simp [hm, h.minterms hm]
    · by_cases hd : p.name = ['d']
      · simp [hd, h.dontCares hd]
      · simp [hv, hm, hd]

/-- **All parameters** tell what any of them is about, in whatever order. -/
theorem foldlM_read_of_says {spec : Spec} {ps : List Parameter} (h : ∀ p ∈ ps, p.Says spec)
    (q : QueryState) : ps.foldlM read q = .ok (q.told spec (ps.map Parameter.name)) := by
  induction ps generalizing q with
  | nil => rfl
  | cons p rest ih =>
    have hrest := ih (fun r hr => h r (List.mem_cons_of_mem p hr)) (q.told spec [p.name])
    rw [← told_cons] at hrest
    rw [List.foldlM_cons, read_of_says (h p List.mem_cons_self), List.map_cons]
    exact hrest

end QueryState

/-! ## Links -/

/-- **A piece gives a number** under a name. -/
def GivesNumber (name : Char) (n : Nat) (piece : List Char) : Prop :=
  ∃ value, Spaced n value ∧ Parameter.WrittenAs ⟨[name], value⟩ piece

/-- **A piece gives a list** under a name. -/
def GivesList (name : Char) (ns : List Nat) (piece : List Char) : Prop :=
  ∃ entries, Lists ns entries ∧ Parameter.WrittenAs ⟨[name], [','].intercalate entries⟩ piece

/-- **The pieces of a query give a problem**: in some order these are its number of
variables, its minterms, its don't-cares, which may be left out if there are none,
and stray parameters. -/
inductive Spec.GivenBy (spec : Spec) : List (List Char) → Prop where
  /-- All of these, in some order. -/
  | of {v m : List Char} {ds strays pieces : List (List Char)}
      (hv : GivesNumber 'v' spec.numVars v) (hm : GivesList 'm' spec.minterms m)
      (hds : ds = [] ∧ spec.dontCares = [] ∨ ∃ d, ds = [d] ∧ GivesList 'd' spec.dontCares d)
      (hstrays : ∀ piece ∈ strays, Stray piece)
      (horder : pieces.Perm (v :: m :: (ds ++ strays))) : GivenBy spec pieces

/-- **A link to a problem**: a query that gives it, perhaps after a question mark. -/
inductive Spec.LinkedBy (spec : Spec) (link : String) : Prop where
  /-- The query alone. -/
  | query {pieces : List (List Char)} (h : spec.GivenBy pieces)
      (hlink : link.toList = ['&'].intercalate pieces)
  /-- The query in a longer link. -/
  | within {front : List Char} {pieces : List (List Char)} (hfront : '?' ∉ front)
      (h : spec.GivenBy pieces) (hlink : link.toList = front ++ '?' :: ['&'].intercalate pieces)

/-- **The numbers of a problem fit a word.** -/
structure Spec.FitsWords (spec : Spec) : Prop where
  /-- The number of variables does. -/
  numVars : spec.numVars < wordBound
  /-- Every minterm does. -/
  minterms : ∀ m ∈ spec.minterms, m < wordBound
  /-- Every don't-care does. -/
  dontCares : ∀ m ∈ spec.dontCares, m < wordBound

/-- A name of one letter takes nothing apart. -/
theorem whole_singleton {name : Char} (h : name.isAlpha) : Whole [name] ∧ '=' ∉ [name] := by
  have hne : ∀ c, c.isAlpha = false → c ∉ [name] := by
    rintro c hc hmem
    rw [← List.mem_singleton.mp hmem, hc] at h
    exact Bool.false_ne_true h
  exact ⟨⟨hne '&' rfl, hne '?' rfl⟩, hne '=' rfl⟩

theorem GivesNumber.spec {name : Char} {n : Nat} {piece : List Char} (h : GivesNumber name n piece)
    (hname : name.isAlpha) (hn : n < wordBound) :
    Whole piece ∧ (Parameter.ofPiece piece).name = [name]
      ∧ readNumeral wordBound (trim (Parameter.ofPiece piece).value) = .ok n := by
  obtain ⟨value, hvalue, hpiece⟩ := h
  obtain ⟨hwhole, hread⟩ := hpiece.spec (whole_singleton hname).1 (whole_singleton hname).2
    ⟨not_mem_spaced hvalue '&' (by decide), not_mem_spaced hvalue '?' (by decide)⟩
  rw [hread]
  exact ⟨hwhole, rfl, readNumeral_trim_eq_ok_iff.mpr ⟨hvalue, hn⟩⟩

theorem GivesList.spec {name : Char} {ns : List Nat} {piece : List Char}
    (h : GivesList name ns piece) (hname : name.isAlpha) (hns : ∀ n ∈ ns, n < wordBound) :
    Whole piece ∧ (Parameter.ofPiece piece).name = [name]
      ∧ lenientMinterms (Parameter.ofPiece piece).value = ns := by
  obtain ⟨entries, hentries, hpiece⟩ := h
  obtain ⟨hwhole, hread⟩ := hpiece.spec (whole_singleton hname).1 (whole_singleton hname).2
    ⟨hentries.not_mem_intercalate (by decide) (by decide),
      hentries.not_mem_intercalate (by decide) (by decide)⟩
  rw [hread]
  exact ⟨hwhole, rfl, hentries.lenientMinterms_intercalate hns⟩

/-- **What all pieces have**: they are whole and say the problem, or nothing. -/
theorem Spec.GivenBy.forall_says {spec : Spec} {pieces : List (List Char)} (h : spec.GivenBy pieces)
    (hfits : spec.FitsWords) :
    ∀ piece ∈ pieces, Whole piece ∧ (Parameter.ofPiece piece).Says spec := by
  obtain ⟨hv, hm, hds, hstrays, horder⟩ := h
  intro piece hpiece
  rcases List.mem_cons.mp (horder.mem_iff.mp hpiece) with rfl | hpiece
  · obtain ⟨hwhole, hname, hread⟩ := hv.spec rfl hfits.numVars
    exact ⟨hwhole, fun _ => hread, by simp [hname], by simp [hname]⟩
  rcases List.mem_cons.mp hpiece with rfl | hpiece
  · obtain ⟨hwhole, hname, hread⟩ := hm.spec rfl hfits.minterms
    exact ⟨hwhole, by simp [hname], fun _ => hread, by simp [hname]⟩
  rcases List.mem_append.mp hpiece with hpiece | hpiece
  · rcases hds with ⟨rfl, -⟩ | ⟨d, rfl, hd⟩
    · exact absurd hpiece List.not_mem_nil
    · rw [List.mem_singleton.mp hpiece]
      obtain ⟨hwhole, hname, hread⟩ := hd.spec rfl hfits.dontCares
      exact ⟨hwhole, by simp [hname], by simp [hname], fun _ => hread⟩
  · obtain ⟨hwhole, hname⟩ := hstrays piece hpiece
    rw [← Parameter.name_ofPiece, List.mem_cons, List.mem_cons, List.mem_singleton, not_or,
      not_or] at hname
    obtain ⟨hv, hm, hd⟩ := hname
    exact ⟨hwhole, fun h => absurd h hv, fun h => absurd h hm, fun h => absurd h hd⟩

/-- A piece with a name is not passed over. -/
theorem mem_names {pieces : List (List Char)} {piece : List Char} {name : Char}
    (hpiece : piece ∈ pieces) (hname : (Parameter.ofPiece piece).name = [name]) :
    [name] ∈ (piecesRead pieces).map Parameter.name := by
  have hne : piece ≠ [] := by
    rintro rfl
    exact absurd hname (List.cons_ne_nil name []).symm
  refine List.mem_map.mpr ⟨_, List.mem_map.mpr ⟨piece, ?_, rfl⟩, hname⟩
  exact List.mem_filter.mpr ⟨hpiece, by simpa using hne⟩

/-- **A query that gives a problem is read as the problem.** -/
theorem Spec.GivenBy.foldlM_read {spec : Spec} {pieces : List (List Char)} (h : spec.GivenBy pieces)
    (hfits : spec.FitsWords) :
    (queryParameters (['&'].intercalate pieces)).foldlM QueryState.read QueryState.empty
      = .ok ⟨some spec.numVars, some spec.minterms, spec.dontCares⟩ := by
  have hpieces := h.forall_says hfits
  have hsays : ∀ p ∈ piecesRead pieces, p.Says spec := by
    intro p hp
    obtain ⟨piece, hpiece, rfl⟩ := List.mem_map.mp hp
    exact (hpieces piece (List.mem_filter.mp hpiece).1).2
  obtain ⟨hv, hm, hds, -, horder⟩ := h
  have hne : pieces ≠ [] := by
    rintro rfl
    exact absurd horder.length_eq (by simp)
  have hvmem := mem_names (horder.mem_iff.mpr List.mem_cons_self) (hv.spec rfl hfits.numVars).2.1
  have hmmem := mem_names (horder.mem_iff.mpr (List.mem_cons_of_mem _ List.mem_cons_self))
    (hm.spec rfl hfits.minterms).2.1
  rw [queryParameters_intercalate hne fun piece hpiece => (hpieces piece hpiece).1]
  refine (QueryState.foldlM_read_of_says hsays _).trans (congrArg Except.ok ?_)
  refine QueryState.told_empty hvmem hmmem ?_
  rcases hds with ⟨-, hnone⟩ | ⟨d, rfl, hd⟩
  · exact .inr hnone
  · exact .inl (mem_names (horder.mem_iff.mpr (by simp)) (hd.spec rfl hfits.dontCares).2.1)

/-- The query of a longer link is what follows the question mark. -/
theorem queryPart_append {front query : List Char} (hfront : '?' ∉ front) :
    queryPart (front ++ '?' :: query) = query := by
  rw [queryPart, splitOnce_append hfront]

/-- A query without question marks is all of a link. -/
theorem queryPart_of_not_mem {query : List Char} (h : '?' ∉ query) : queryPart query = query := by
  rw [queryPart, splitOnce_of_not_mem h]

/-- **The query of a link** gives the problem. -/
theorem Spec.LinkedBy.exists_pieces {spec : Spec} {link : String} (h : spec.LinkedBy link)
    (hfits : spec.FitsWords) :
    ∃ pieces, spec.GivenBy pieces ∧ queryPart link.toList = ['&'].intercalate pieces := by
  cases h with
  | @query pieces hgiven hlink =>
    refine ⟨pieces, hgiven, ?_⟩
    rw [hlink]
    refine queryPart_of_not_mem fun hmem => ?_
    rcases mem_of_mem_intercalate hmem with hmem | ⟨piece, hpiece, hmem⟩
    · exact absurd hmem (by decide)
    · exact (hgiven.forall_says hfits piece hpiece).1.2 hmem
  | @within front pieces hfront hgiven hlink =>
    exact ⟨pieces, hgiven, by rw [hlink, queryPart_append hfront]⟩

theorem Spec.LinkedBy.ofQuery {spec : Spec} {link : String} (h : spec.LinkedBy link)
    (hfits : spec.FitsWords) :
    Spec.ofQuery? link = .ok (some { spec with expression := none }) := by
  obtain ⟨pieces, hgiven, hquery⟩ := h.exists_pieces hfits
  rw [Spec.ofQuery?, hquery, hgiven.foldlM_read hfits]
  rfl

/-! ## The link that is written -/

/-- What has no percent sign may be written as it is. -/
theorem writtenAs_self {p : Parameter} (h : '%' ∉ p.value) :
    p.WrittenAs (p.name ++ '=' :: p.value) :=
  ⟨p.value, escaped_self h, rfl⟩

theorem givesNumber_numeral (name : Char) (n : Nat) :
    GivesNumber name n (name :: '=' :: (numeral n).toList) :=
  ⟨_, spaced_numeral n,
    writtenAs_self (p := ⟨[name], _⟩) (not_mem_spaced (spaced_numeral n) '%' (by decide))⟩

theorem givesList_numerals (name : Char) (ns : List Nat) :
    GivesList name ns (name :: '=' :: (numerals "," ns).toList) := by
  rw [toList_numerals]
  exact ⟨_, lists_numerals ns, writtenAs_self (p := ⟨[name], _⟩)
    ((lists_numerals ns).not_mem_intercalate (by decide) (by decide))⟩

/-- **The query that a problem is written as is a link to it.** -/
theorem Spec.linkedBy_toQuery (spec : Spec) : spec.LinkedBy spec.toQuery := by
  have hv := givesNumber_numeral 'v' spec.numVars
  have hm := givesList_numerals 'm' spec.minterms
  have hstrays : ∀ piece ∈ ([] : List (List Char)), Stray piece := by simp
  unfold toQuery
  by_cases hnone : spec.dontCares = []
  · refine .query (.of hv hm (.inl ⟨rfl, hnone⟩) hstrays (.refl _)) ?_
    rw [hnone]
    simp [List.intercalate_cons_cons]
  · refine .query (.of hv hm (.inr ⟨_, rfl, givesList_numerals 'd' _⟩) hstrays (.refl _)) ?_
    simp [hnone, List.intercalate_cons_cons]

/-- **Links give the problem back.** The query that a problem is written as is read
as the problem without its expression, and so is every other link to the problem:
with the query in a longer text, its parameters in another order and among others,
blanks around the numbers, entries in the lists that are no numbers, and characters
escaped. -/
theorem Spec.ofQuery_linkedBy (spec : Spec) (h : spec.FitsWords) :
    Spec.ofQuery? spec.toQuery = .ok (some { spec with expression := none })
      ∧ spec.LinkedBy spec.toQuery
      ∧ ∀ link, spec.LinkedBy link →
        Spec.ofQuery? link = .ok (some { spec with expression := none }) :=
  ⟨spec.linkedBy_toQuery.ofQuery h, spec.linkedBy_toQuery, fun _ hlink => hlink.ofQuery h⟩

/-- A problem with numbers out of order and an expression. -/
def sharedSpec : Spec := ⟨3, [1, 0], [7], some "A'B'"⟩

/-- A link to it that has suffered on the way. -/
def sharedLink : String := "kmap/?ref=%zz&d=%37&m=,%201%2c0,two&v=3 "

theorem ofQuery_sharedLink :
    sharedSpec.FitsWords ∧ sharedSpec.LinkedBy sharedLink
      ∧ Spec.ofQuery? sharedLink = .ok (some ⟨3, [1, 0], [7], none⟩) := by
  have hfits : sharedSpec.FitsWords := ⟨by decide, by decide, by decide⟩
  have hblank : ∀ c ∈ [' '], isBlank c = true := List.forall_mem_singleton.mpr rfl
  have hnone : ∀ c ∈ ([] : List Char), isBlank c = true := List.forall_mem_nil _
  have hidle : ∀ entry ∈ ["".toList, "two".toList], Idle entry := by
    have hfault : ∀ entry ∈ ["".toList, "two".toList],
        (readNumeral wordBound (trim entry)).toOption = none := by decide
    have hplain : ∀ entry ∈ ["".toList, "two".toList],
        (queryMarks.all fun c => !entry.contains c) = true := by decide
    refine fun entry hentry => ⟨fun n hn hspaced => ?_, fun c hc => ?_⟩
    · have hnone := hfault entry hentry
      rw [readNumeral_trim_eq_ok_iff.mpr ⟨hspaced, hn⟩] at hnone
      exact Option.some_ne_none n hnone
    · simpa using List.all_eq_true.mp (hplain entry hentry) c hc
  have hentries : Lists [1, 0] ["".toList, " 1".toList, "0".toList, "two".toList] :=
    .idle (hidle _ (by decide)) <| .number ⟨[' '], _, [], hblank, hnone, isNumeral_numeral 1, by decide⟩ <|
      .number (spaced_numeral 0) <| .idle (hidle _ (by decide)) .nil
  have hv : GivesNumber 'v' 3 "v=3 ".toList :=
    ⟨"3 ".toList, ⟨[], _, [' '], hnone, hblank, isNumeral_numeral 3, by decide⟩, _,
      escaped_self (by decide), by decide⟩
  have hm : GivesList 'm' [1, 0] "m=,%201%2c0,two".toList := by
    have hrest : Escaped "0,two".toList "0,two".toList := escaped_self (by decide)
    have hwritten := Escaped.kept (c := ',') (by decide) <|
      .escaped (c := ' ') (.cons 0x20 true true .nil) <| .kept (c := '1') (by decide) <|
      .escaped (c := ',') (.cons 0x2C true false .nil) hrest
    exact ⟨_, hentries, ",%201%2c0,two".toList, hwritten, by decide⟩
  have hd : GivesList 'd' [7] "d=%37".toList :=
    ⟨_, lists_numerals [7], "%37".toList, .escaped (c := '7') (.cons 0x37 true true .nil) .nil,
      by decide⟩
  have hstray : ∀ piece ∈ ["ref=%zz".toList], Stray piece := by
    refine fun piece hpiece => ⟨⟨?_, ?_⟩, ?_⟩ <;> revert piece <;> decide
  have hgiven : sharedSpec.GivenBy
      ["ref=%zz".toList, "d=%37".toList, "m=,%201%2c0,two".toList, "v=3 ".toList] :=
    .of hv hm (.inr ⟨_, rfl, hd⟩) hstray (by decide)
  have hlink : sharedSpec.LinkedBy sharedLink :=
    .within (show '?' ∉ "kmap/".toList by decide) hgiven (by decide)
  exact ⟨hfits, hlink, (Spec.ofQuery_linkedBy sharedSpec hfits).2.2 sharedLink hlink⟩

end Karnaugh
