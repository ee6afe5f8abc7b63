import Karnaugh.Expression
import Karnaugh.Proofs.Cubes

/-!
# What an expression means

`Expression.parse` scans each term from its end and folds what it finds
into a pattern. This module says what an expression means without any
scanning: delete the blanks, cut the text at the plus signs, and drop the
empty pieces (`Expression.pieces`). A piece can be read when it names a
constant or a variable (`Expression.Named`). It is true at a minterm when it
has no zero in it and every letter in it, with the marks right after it,
gets the digit it asks for (`Expression.TrueAt`).

What the scan finds is put in these words first, by induction on the text
(`Expression.literal_mem_scan`, `Expression.constant_mem_scan`). The rest
follows a term through `readTerm` and the terms through `readTerms`.
-/

namespace Karnaugh.Expression

open Text

/-! ## The meaning of a text -/

/-- **The pieces of an expression**: without blanks, between plus signs, and
not empty. -/
def pieces (expression : List Char) : List (List Char) :=
  (split '+' (compact expression)).filter fun piece => !piece.isEmpty

/-- A character is the letter, in either case, of the variable at a
position. -/
def IsLetter (numVars : Nat) (c : Char) (position : Nat) : Prop :=
  position < numVars ∧ variableNames[position]? = some c.toUpper

/-- **A piece names something**: a constant or one of the variables. -/
def Named (numVars : Nat) (piece : List Char) : Prop :=
  ∃ c ∈ piece, c = '0' ∨ c = '1' ∨ ∃ position, IsLetter numVars c position

/-- **The marks** that complement a letter: the straight apostrophe and the raised one,
the exclamation mark, and two kinds of line above the letter. -/
def negationMarks : List Char := ['\'', '\u2019', '!', '\u0305', '\u0304']

/-- **A letter with its marks**: somewhere in the text stands a letter of the
variable at a position, and exactly `marks` marks follow it before anything
else does. -/
def Occurs (numVars : Nat) (text : List Char) (position marks : Nat) : Prop :=
  ∃ (before : List Char) (letter : Char) (run after : List Char),
    text = before ++ letter :: (run ++ after) ∧ IsLetter numVars letter position
      ∧ (∀ c ∈ run, c ∈ negationMarks) ∧ (∀ c ∈ after.head?, c ∉ negationMarks)
      ∧ run.length = marks

/-- **A piece is true at a minterm** when it has no zero in it and every
letter in it finds the digit it asks for: a one after an even number of
marks, a zero after an odd number. -/
def TrueAt (numVars minterm : Nat) (piece : List Char) : Prop :=
  '0' ∉ piece ∧ ∀ position marks, Occurs numVars piece position marks →
    minterm.testBit (numVars - 1 - position) = (marks % 2 == 0)

/-- **An expression can be read** when it has a piece and each piece names
something. -/
def Readable (numVars : Nat) (expression : List Char) : Prop :=
  pieces expression ≠ [] ∧ ∀ piece ∈ pieces expression, Named numVars piece

/-! ## Letters and marks -/

theorem letterPosition?_eq_some_iff {n position : Nat} {c : Char} :
    letterPosition? n c = some position ↔ IsLetter n c position := by
  have hnodup : variableNames.Nodup := by decide
  unfold letterPosition?
  rw [List.findIdx?_eq_some_iff_getElem, IsLetter]
  simp only [List.getElem_take, beq_iff_eq, List.length_take]
  constructor
  · rintro ⟨hlt, heq, -⟩
    refine ⟨by omega, ?_⟩
    rw [List.getElem?_eq_getElem (by omega), heq]
  · rintro ⟨hn, hc⟩
    obtain ⟨hlt, heq⟩ := List.getElem?_eq_some_iff.mp hc
    refine ⟨by omega, heq, fun j hj hjc => ?_⟩
    have hsame := hnodup.getElem_inj_iff.mp (hjc.trans heq.symm)
    omega

/-- The marks are what the scan takes for marks. -/
theorem isMark_iff {c : Char} : isMark c = true ↔ c ∈ negationMarks := by
  simp [isMark, negationMarks, or_assoc]

/-- A mark is none of the other characters that mean something. -/
theorem ne_of_isMark {c : Char} (h : isMark c = true) :
    c ≠ '0' ∧ c ≠ '1' ∧ c.toUpper ∉ variableNames := by
  rw [isMark_iff] at h
  simp only [negationMarks, List.mem_cons, List.not_mem_nil, or_false] at h
  rcases h with rfl | rfl | rfl | rfl | rfl
  all_goals decide

theorem not_isLetter_of_isMark {n position : Nat} {c : Char} (h : isMark c = true) :
    ¬IsLetter n c position :=
  fun hl => (ne_of_isMark h).2.2 (List.mem_of_getElem? hl.2)

/-- The constants are no letters. -/
theorem not_isLetter_constant {n position : Nat} {c : Char} (h : c = '0' ∨ c = '1') :
    ¬IsLetter n c position := by
  rintro ⟨-, hc⟩
  have hmem := List.mem_of_getElem? hc
  rcases h with rfl | rfl
  · exact absurd hmem (by decide)
  · exact absurd hmem (by decide)

/-! ## What the scan finds -/

/-- **An occurrence is at the start of a text or further on.** -/
theorem occurs_cons {n position marks : Nat} {c : Char} {rest : List Char} :
    Occurs n (c :: rest) position marks
      ↔ (IsLetter n c position ∧ (rest.takeWhile isMark).length = marks)
          ∨ Occurs n rest position marks := by
  constructor
  · rintro ⟨before, letter, run, after, heq, hl, hrun, hafter, hlen⟩
    cases before with
    | nil =>
      obtain ⟨rfl, rfl⟩ := List.cons.inj heq
      refine Or.inl ⟨hl, ?_⟩
      rw [List.takeWhile_append_of_pos fun d hd => isMark_iff.mpr (hrun d hd)]
      cases after with
      | nil => rw [List.takeWhile_nil, List.append_nil, hlen]
      | cons d after =>
        rw [List.takeWhile_cons_of_neg fun hd => hafter d rfl (isMark_iff.mp hd), List.append_nil,
          hlen]
    | cons b before =>
      exact Or.inr ⟨before, letter, run, after, (List.cons.inj heq).2, hl, hrun, hafter, hlen⟩
  · rintro (⟨hl, hlen⟩ | ⟨before, letter, run, after, rfl, hl, hrun, hafter, hlen⟩)
    · refine ⟨[], c, rest.takeWhile isMark, rest.dropWhile isMark, ?_, hl, ?_, ?_, hlen⟩
      · rw [List.takeWhile_append_dropWhile]; rfl
      · exact fun d hd => isMark_iff.mp (List.mem_takeWhile_imp hd)
      · intro d hd hmark
        have hhead := List.head?_dropWhile_not isMark rest
        rw [Option.mem_def.mp hd] at hhead
        simp [isMark_iff.mpr hmark] at hhead
    · exact ⟨c :: before, letter, run, after, rfl, hl, hrun, hafter, hlen⟩

/-- A letter of a text occurs in it, with the marks that happen to follow. -/
theorem exists_occurs {n position : Nat} {c : Char} {text : List Char} (hc : c ∈ text)
    (hl : IsLetter n c position) : ∃ marks, Occurs n text position marks := by
  obtain ⟨before, rest, rfl⟩ := List.append_of_mem hc
  have hstart : Occurs n (c :: rest) position (rest.takeWhile isMark).length :=
    occurs_cons.mpr (Or.inl ⟨hl, rfl⟩)
  obtain ⟨before', letter, run, after, heq, hocc⟩ := hstart
  exact ⟨_, before ++ before', letter, run, after, by rw [heq, List.append_assoc], hocc⟩

theorem not_occurs_nil {n position marks : Nat} : ¬Occurs n [] position marks := by
  rintro ⟨before, letter, run, after, heq, -⟩
  exact absurd heq.symm (List.append_ne_nil_of_right_ne_nil _ (List.cons_ne_nil _ _))

/-- The factor that a character makes, after which stands an odd number of
marks or not. -/
def factor? (numVars : Nat) (odd : Bool) (c : Char) : Option Factor :=
  match letterPosition? numVars c with
  | some position => some (.literal ⟨position, odd⟩)
  | none =>
    if c = '1' then some (.constant true)
    else if c = '0' then some (.constant false)
    else none

theorem scan_mark {n : Nat} {c : Char} (rest : List Char) (h : isMark c = true) :
    scan n (c :: rest) = (!(scan n rest).1, (scan n rest).2) := by
  rw [scan]
  dsimp only
  rw [if_pos h]

theorem scan_not_mark {n : Nat} {c : Char} (rest : List Char) (h : ¬isMark c = true) :
    scan n (c :: rest)
      = (false, (factor? n (scan n rest).1 c).toList ++ (scan n rest).2) := by
  rw [scan, factor?]
  dsimp only
  rw [if_neg h]
  cases letterPosition? n c with
  | some position => rfl
  | none =>
    by_cases h1 : c = '1'
    · rw [if_pos h1, if_pos h1]; rfl
    · rw [if_neg h1, if_neg h1]
      by_cases h0 : c = '0'
      · rw [if_pos h0, if_pos h0]; rfl
      · rw [if_neg h0, if_neg h0]; rfl

theorem factor?_eq_literal_iff {n : Nat} {odd : Bool} {c : Char} {l : Literal} :
    factor? n odd c = some (.literal l) ↔ IsLetter n c l.position ∧ l.negated = odd := by
  rw [factor?, ← letterPosition?_eq_some_iff]
  split
  · next position h =>
    rw [h]
    cases l
    simp [eq_comm]
  · next h =>
    rw [h]
    split
    · simp
    · split <;> simp

theorem factor?_eq_constant_iff {n : Nat} {odd b : Bool} {c : Char} :
    factor? n odd c = some (.constant b) ↔ c = if b then '1' else '0' := by
  unfold factor?
  split
  · next position h =>
    refine ⟨nofun, fun hc => ?_⟩
    refine absurd (letterPosition?_eq_some_iff.mp h) (not_isLetter_constant ?_)
    cases b
    · exact Or.inl hc
    · exact Or.inr hc
  · split
    · next h => subst h; cases b <;> simp
    · next h1 =>
      split
      · next h0 => subst h0; cases b <;> simp
      · next h0 => cases b <;> simp [h1, h0]

/-- The scan starts with the parity of the marks that a text starts with. -/
theorem scan_fst (n : Nat) (text : List Char) :
    (scan n text).1 = ((text.takeWhile isMark).length % 2 == 1) := by
  induction text with
  | nil => rfl
  | cons c rest ih =>
    by_cases hm : isMark c = true
    · rw [scan_mark rest hm, List.takeWhile_cons_of_pos hm, List.length_cons, ih, Nat.add_mod]
      rcases Nat.mod_two_eq_zero_or_one (rest.takeWhile isMark).length with h | h
      · rw [h]; rfl
      · rw [h]; rfl
    · rw [scan_not_mark rest hm, List.takeWhile_cons_of_neg hm]
      rfl

/-- **The literals of a text** are its letters, each with the parity of the
marks after it. -/
theorem literal_mem_scan {n : Nat} {text : List Char} {l : Literal} :
    .literal l ∈ (scan n text).2
      ↔ ∃ marks, Occurs n text l.position marks ∧ l.negated = (marks % 2 == 1) := by
  induction text with
  | nil =>
    refine ⟨nofun, ?_⟩
    rintro ⟨marks, hocc, -⟩
    exact absurd hocc not_occurs_nil
  | cons c rest ih =>
    simp only [occurs_cons]
    by_cases hm : isMark c = true
    · rw [scan_mark rest hm, ih]
      simp only [not_isLetter_of_isMark hm, false_and, false_or]
    · rw [scan_not_mark rest hm, List.mem_append, Option.mem_toList,
        factor?_eq_literal_iff, ih, scan_fst]
      constructor
      · rintro (⟨hl, hneg⟩ | ⟨marks, hocc, hneg⟩)
        · exact ⟨_, Or.inl ⟨hl, rfl⟩, hneg⟩
        · exact ⟨marks, Or.inr hocc, hneg⟩
      · rintro ⟨marks, ⟨hl, rfl⟩ | hocc, hneg⟩
        · exact Or.inl ⟨hl, hneg⟩
        · exact Or.inr ⟨marks, hocc, hneg⟩

/-- The constants of a text are its ones and zeros. -/
theorem constant_mem_scan {n : Nat} {text : List Char} {b : Bool} :
    .constant b ∈ (scan n text).2 ↔ (if b then '1' else '0') ∈ text := by
  induction text with
  | nil => exact ⟨nofun, nofun⟩
  | cons c rest ih =>
    by_cases hm : isMark c = true
    · have hne := ne_of_isMark hm
      rw [scan_mark rest hm, ih, List.mem_cons, or_iff_right]
      cases b
      · exact fun h => hne.1 h.symm
      · exact fun h => hne.2.1 h.symm
    · rw [scan_not_mark rest hm, List.mem_append, Option.mem_toList,
        factor?_eq_constant_iff, ih, List.mem_cons, eq_comm]

/-- A text without factors names nothing. -/
theorem scan_eq_nil_iff {n : Nat} {text : List Char} :
    (scan n text).2 = [] ↔ ¬Named n text := by
  rw [List.eq_nil_iff_forall_not_mem]
  constructor
  · rintro hno ⟨c, hc, rfl | rfl | ⟨position, hl⟩⟩
    · exact hno _ (constant_mem_scan (b := false).mpr hc)
    · exact hno _ (constant_mem_scan (b := true).mpr hc)
    · obtain ⟨marks, hocc⟩ := exists_occurs hc hl
      exact hno (.literal ⟨position, marks % 2 == 1⟩) (literal_mem_scan.mpr ⟨marks, hocc, rfl⟩)
  · rintro hno (l | b) hmem
    · obtain ⟨marks, ⟨before, letter, run, after, rfl, hl, -⟩, -⟩ := literal_mem_scan.mp hmem
      exact hno ⟨letter, by simp, Or.inr (Or.inr ⟨_, hl⟩)⟩
    · have hc := constant_mem_scan.mp hmem
      cases b
      · exact hno ⟨_, hc, Or.inl rfl⟩
      · exact hno ⟨_, hc, Or.inr (Or.inl rfl)⟩

/-! ## Terms and pieces -/

/-- Blanks may be deleted before a text is cut or after. -/
theorem split_compact (text : List Char) :
    split '+' (compact text) = (split '+' text).map compact := by
  induction text with
  | nil => rfl
  | cons c rest ih =>
    obtain ⟨piece, more, hs⟩ := exists_split_eq_cons '+' rest
    have hcompact := hs ▸ ih
    by_cases hplus : c = '+'
    · subst hplus
      rw [show compact ('+' :: rest) = '+' :: compact rest from rfl, split_cons_self,
        split_cons_self, ih]
      rfl
    · rw [split_cons_of_ne hplus hs, List.map_cons]
      by_cases hc : isBlank c = true
      · rw [compact_cons_of_isBlank hc, compact_cons_of_isBlank hc, hcompact, List.map_cons]
      · have hc := Bool.eq_false_of_not_eq_true hc
        rw [compact_cons_of_not_isBlank hc, compact_cons_of_not_isBlank hc,
          split_cons_of_ne hplus (hcompact.trans (List.map_cons ..))]

/-- **The pieces are the terms without their blanks.** -/
theorem map_compact_terms (expression : List Char) :
    (terms expression).map compact = pieces expression := by
  unfold terms pieces
  rw [split_compact, List.filter_map, List.filter_map, List.map_map]
  have hempty : (fun term => !(trim term).isEmpty) = fun term => !(compact term).isEmpty := by
    funext term
    rw [Bool.eq_iff_iff, Bool.not_eq_true', Bool.not_eq_true', List.isEmpty_eq_false_iff,
      List.isEmpty_eq_false_iff, Ne, Ne, trim_eq_nil_iff, ← compact_eq_nil_iff]
  rw [show compact ∘ trim = compact from funext compact_trim]
  exact congrArg (fun f => (List.filter f (split '+' expression)).map compact) hempty

/-! ## Reading a term -/

theorem requirement_eq_some_iff {fs : List Factor} {position : Nat} {b : Bool}
    (h : ¬(.literal ⟨position, false⟩ ∈ fs ∧ .literal ⟨position, true⟩ ∈ fs)) :
    requirement fs position = some b ↔ .literal ⟨position, !b⟩ ∈ fs := by
  unfold requirement
  simp only [List.contains_iff_mem]
  split
  · next hplain => cases b <;> simp_all
  · next hplain =>
    split
    · next hmarked => cases b <;> simp_all
    · next hmarked => cases b <;> simp_all

theorem contradictory_eq_true_iff {n : Nat} {fs : List Factor} :
    contradictory n fs = true
      ↔ .constant false ∈ fs ∨ ∃ position < n,
          .literal ⟨position, false⟩ ∈ fs ∧ .literal ⟨position, true⟩ ∈ fs := by
  simp [contradictory]

/-- **A piece is true** at a minterm when zero is not one of its factors and
every literal gets its digit. -/
theorem trueAt_iff {n minterm : Nat} {piece : List Char} :
    TrueAt n minterm piece
      ↔ .constant false ∉ (scan n piece).2
          ∧ ∀ position negated, .literal ⟨position, negated⟩ ∈ (scan n piece).2
            → minterm.testBit (n - 1 - position) = !negated := by
  have hparity : ∀ k : Nat, (!(k % 2 == 1)) = (k % 2 == 0) := by
    intro k
    rcases Nat.mod_two_eq_zero_or_one k with h | h
    · rw [h]; rfl
    · rw [h]; rfl
  rw [constant_mem_scan, TrueAt]
  refine and_congr_right fun _ => ?_
  simp only [literal_mem_scan]
  constructor
  · rintro h position _ ⟨marks, hocc, rfl⟩
    rw [h position marks hocc, hparity]
  · intro h position marks hocc
    rw [h position _ ⟨marks, hocc, rfl⟩, hparity]

/-- A piece that asks for a digit and for its opposite, or has a zero in it,
is never true. -/
theorem not_trueAt_of_contradictory {n minterm : Nat} {piece : List Char}
    (h : contradictory n (scan n piece).2 = true) : ¬TrueAt n minterm piece := by
  rw [trueAt_iff]
  rintro ⟨hzero, hdigit⟩
  rcases contradictory_eq_true_iff.mp h with hc | ⟨position, -, hplain, hmarked⟩
  · exact absurd hc hzero
  · have hboth := (hdigit position false hplain).symm.trans (hdigit position true hmarked)
    cases hboth

/-- **The pattern of factors** that do not contradict each other requires
what the literals ask for. -/
theorem exists_ofBits?_requirement {n : Nat} (two_le : minVariables ≤ n)
    (le_six : n ≤ maxVariables) {fs : List Factor} (h : ¬contradictory n fs = true) :
    ∃ p, Pattern.ofBits? ((List.range n).map (requirement fs)) = some p ∧ p.numVars = n
      ∧ ∀ (i : Nat) (b : Bool), p.bits[i]? = some (some b)
          ↔ i < n ∧ .literal ⟨i, !b⟩ ∈ fs := by
  rw [contradictory_eq_true_iff, not_or] at h
  have hlen : ((List.range n).map (requirement fs)).length = n := by
    rw [List.length_map, List.length_range]
  refine ⟨⟨(List.range n).map (requirement fs), hlen.symm ▸ two_le, hlen.symm ▸ le_six⟩,
    Pattern.ofBits?_eq_some_iff.mpr rfl, hlen, fun i b => ?_⟩
  show ((List.range n).map (requirement fs))[i]? = _ ↔ _
  rcases Nat.lt_or_ge i n with hi | hi
  · rw [List.getElem?_map, List.getElem?_range hi, Option.map_some, Option.some.injEq,
      requirement_eq_some_iff fun hboth => h.2 ⟨i, hi, hboth⟩, and_iff_right hi]
  · rw [List.getElem?_eq_none (hlen.le.trans hi)]
    exact ⟨nofun, fun h => absurd h.1 (by omega)⟩

/-- The pattern of a term, where there is one, covers the minterms at which
its piece is true; where there is none, the piece is never true. -/
theorem readTerm_eq_ok {n : Nat} (two_le : minVariables ≤ n) (le_six : n ≤ maxVariables)
    {term : List Char} (h : Named n (compact term)) :
    ∃ pattern? : Option Pattern, readTerm n term = .ok pattern?
      ∧ (∀ p ∈ pattern?, p.numVars = n)
      ∧ ∀ m < inputCount n, (∃ p ∈ pattern?, p.covers m = true) ↔ TrueAt n m (compact term) := by
  set fs := factors n term with hfs
  have hscan : (scan n (compact term)).2 = fs := rfl
  have hne : fs ≠ [] := fun hnil => scan_eq_nil_iff.mp (hscan.trans hnil) h
  obtain ⟨f, rest, hcons⟩ := List.exists_cons_of_ne_nil hne
  have hread : readTerm n term
      = if contradictory n fs then .ok none
        else .ok (Pattern.ofBits? ((List.range n).map (requirement fs))) := by
    rw [readTerm, ← hfs, hcons]
  rw [hread]
  by_cases hcon : contradictory n fs = true
  · rw [if_pos hcon]
    refine ⟨none, rfl, nofun, fun m _ => ⟨fun ⟨p, hp, _⟩ => (Option.not_mem_none p hp).elim, ?_⟩⟩
    exact fun htrue => absurd htrue (not_trueAt_of_contradictory hcon)
  · rw [if_neg hcon]
    obtain ⟨p, hof, hvars, hbits⟩ := exists_ofBits?_requirement two_le le_six hcon
    rw [contradictory_eq_true_iff, not_or] at hcon
    -- a letter of the map is below the number of variables
    have hposition : ∀ {position negated}, .literal ⟨position, negated⟩ ∈ fs → position < n := by
      intro position negated hmem
      obtain ⟨marks, ⟨_, _, _, _, _, hl, _⟩, _⟩ := literal_mem_scan.mp (hscan ▸ hmem)
      exact hl.1
    refine ⟨some p, by rw [hof], fun q hq => Option.mem_some_iff.mp hq ▸ hvars, fun m hm => ?_⟩
    simp only [Option.mem_some_iff, exists_eq_left', Pattern.covers_iff, hvars, hm, true_and,
      Pattern.agrees_iff, hbits, trueAt_iff, hscan]
    rw [and_iff_right hcon.1, show p.bits.length = n from hvars]
    constructor
    · intro h position negated hmem
      exact h position (!negated) ⟨hposition hmem, by rwa [Bool.not_not]⟩
    · rintro h i b ⟨-, hmem⟩
      rw [h i _ hmem, Bool.not_not]

theorem readTerm_eq_error {n : Nat} {term : List Char} (h : ¬Named n (compact term)) :
    readTerm n term = .error (.emptyTerm (String.ofList term) n) := by
  have hnil : factors n term = [] := scan_eq_nil_iff.mpr h
  rw [readTerm, hnil]

/-! ## Reading an expression -/

/-- Terms that all name something are read, into patterns that together
cover the minterms at which one of the pieces is true. -/
theorem readTerms_eq_ok {n : Nat} (two_le : minVariables ≤ n) (le_six : n ≤ maxVariables)
    {ts : List (List Char)} (h : ∀ term ∈ ts, Named n (compact term)) :
    ∃ patterns, readTerms n ts = .ok patterns
      ∧ (∀ p ∈ patterns, p.numVars = n)
      ∧ ∀ m < inputCount n, (∃ p ∈ patterns, p.covers m = true)
          ↔ ∃ term ∈ ts, TrueAt n m (compact term) := by
  induction ts with
  | nil => exact ⟨[], rfl, nofun, fun m _ => ⟨nofun, nofun⟩⟩
  | cons term rest ih =>
    obtain ⟨pattern?, hterm, hvars, hcovers⟩ :=
      readTerm_eq_ok two_le le_six (h term List.mem_cons_self)
    obtain ⟨patterns, hrest, hrestVars, hrestCovers⟩ :=
      ih fun t ht => h t (List.mem_cons_of_mem _ ht)
    refine ⟨pattern?.toList ++ patterns, ?_, fun p hp => ?_, fun m hm => ?_⟩
    · rw [readTerms, hterm, hrest]
      rfl
    · rcases List.mem_append.mp hp with hp | hp
      · exact hvars p (Option.mem_toList.mp hp)
      · exact hrestVars p hp
    · simp only [List.mem_append, Option.mem_toList, List.mem_cons, or_and_right, exists_or,
        exists_eq_left]
      rw [← hcovers m hm, ← hrestCovers m hm]
      rfl

/-- A term that names nothing ends the reading. -/
theorem readTerms_eq_error {n : Nat} (two_le : minVariables ≤ n) (le_six : n ≤ maxVariables)
    {ts : List (List Char)} (h : ∃ term ∈ ts, ¬Named n (compact term)) :
    ∃ fault, readTerms n ts = .error fault := by
  induction ts with
  | nil => obtain ⟨term, hmem, -⟩ := h; cases hmem
  | cons term rest ih =>
    by_cases hterm : Named n (compact term)
    · obtain ⟨pattern?, hread, -⟩ := readTerm_eq_ok two_le le_six hterm
      obtain ⟨t, ht, hno⟩ := h
      have hrest : ∃ t ∈ rest, ¬Named n (compact t) := by
        rcases List.mem_cons.mp ht with rfl | ht
        · exact absurd hterm hno
        · exact ⟨t, ht, hno⟩
      obtain ⟨fault, hfault⟩ := ih hrest
      exact ⟨fault, by rw [readTerms, hread, hfault]; rfl⟩
    · exact ⟨_, by rw [readTerms, readTerm_eq_error hterm]; rfl⟩

theorem parse_of_count {expression : String} {n : Nat}
    (h : ¬(minVariables ≤ n ∧ n ≤ maxVariables)) :
    parse expression n = .error (.unsupportedVariableCount n minVariables maxVariables) := by
  unfold parse parsePatterns checkVariableCount
  rw [if_neg h]
  rfl

theorem parsePatterns_of_terms {expression : String} {n : Nat} (two_le : minVariables ≤ n)
    (le_six : n ≤ maxVariables) (h : terms expression.toList ≠ []) :
    parsePatterns expression n
      = (readTerms n (terms expression.toList)).mapError (.malformedExpression expression) := by
  unfold parsePatterns checkVariableCount
  rw [if_pos ⟨two_le, le_six⟩]
  obtain ⟨t, ts, hts⟩ := List.exists_cons_of_ne_nil h
  rw [hts]
  rfl

/-- An expression is readable when its terms are. -/
theorem readable_iff {n : Nat} {expression : List Char} :
    Readable n expression
      ↔ terms expression ≠ [] ∧ ∀ term ∈ terms expression, Named n (compact term) := by
  unfold Readable
  rw [← map_compact_terms, Ne, Ne, List.map_eq_nil_iff, List.forall_mem_map]

/-- **A readable expression** is answered with the minterms at which one of
its pieces is true. -/
theorem parse_eq_ok {expression : String} {n : Nat} (two_le : minVariables ≤ n)
    (le_six : n ≤ maxVariables) (h : Readable n expression.toList) :
    ∃ ms, parse expression n = .ok ms ∧ ms.Pairwise (· < ·)
      ∧ ∀ m, m ∈ ms ↔ m < inputCount n
          ∧ ∃ piece ∈ pieces expression.toList, TrueAt n m piece := by
  obtain ⟨hterms, hnamed⟩ := readable_iff.mp h
  obtain ⟨patterns, hread, -, hcovers⟩ := readTerms_eq_ok two_le le_six hnamed
  refine ⟨coveredByAny n patterns, ?_, List.Pairwise.filter _ List.pairwise_lt_range, ?_⟩
  · rw [parse, parsePatterns_of_terms two_le le_six hterms, hread]
    rfl
  · intro m
    rw [coveredByAny, List.mem_filter, List.mem_range, List.any_eq_true, ← map_compact_terms]
    refine and_congr_right fun hm => (hcovers m hm).trans ?_
    simp only [List.mem_map, exists_exists_and_eq_and]

/-- An expression that is not readable is malformed. -/
theorem parse_eq_error {expression : String} {n : Nat} (two_le : minVariables ≤ n)
    (le_six : n ≤ maxVariables) (h : ¬Readable n expression.toList) :
    ∃ fault, parse expression n = .error (.malformedExpression expression fault) := by
  by_cases hterms : terms expression.toList = []
  · refine ⟨.noTerms, ?_⟩
    unfold parse parsePatterns checkVariableCount
    rw [if_pos ⟨two_le, le_six⟩, hterms]
    rfl
  · rw [readable_iff, not_and] at h
    have hno := h hterms
    push Not at hno
    obtain ⟨fault, hfault⟩ := readTerms_eq_error two_le le_six hno
    refine ⟨fault, ?_⟩
    rw [parse, parsePatterns_of_terms two_le le_six hterms, hfault]
    rfl

/-- **What is read from a text.** The number of variables is refused exactly
when no expression has it. Otherwise a text is read exactly when it has a
piece and each piece names something, and is malformed exactly when not;
what is read are the minterms, ascending, at which some piece is true. -/
theorem parse_meaning (expression : String) (n : Nat) :
    ((∃ found least most,
        parse expression n = .error (.unsupportedVariableCount found least most))
      ↔ ¬(minVariables ≤ n ∧ n ≤ maxVariables))
    ∧ (minVariables ≤ n ∧ n ≤ maxVariables →
      ((∃ ms, parse expression n = .ok ms) ↔ Readable n expression.toList)
      ∧ ((∃ fault, parse expression n = .error (.malformedExpression expression fault))
          ↔ ¬Readable n expression.toList)
      ∧ ∀ ms, parse expression n = .ok ms →
          ms.Pairwise (· < ·) ∧ (∀ m ∈ ms, m < 2 ^ n)
          ∧ ∀ m < 2 ^ n, m ∈ ms ↔ ∃ piece ∈ pieces expression.toList, TrueAt n m piece) := by
  by_cases hcount : minVariables ≤ n ∧ n ≤ maxVariables
  · obtain ⟨two_le, le_six⟩ := hcount
    by_cases hread : Readable n expression.toList
    · obtain ⟨ms, hok, hsorted, hmem⟩ := parse_eq_ok two_le le_six hread
      rw [hok]
      refine ⟨⟨nofun, fun h => absurd ⟨two_le, le_six⟩ h⟩, fun _ =>
        ⟨⟨fun _ => hread, fun _ => ⟨ms, rfl⟩⟩, ⟨nofun, fun h => absurd hread h⟩, ?_⟩⟩
      rintro _ ⟨⟩
      exact ⟨hsorted, fun m hm => ((hmem m).mp hm).1,
        fun m hm => (hmem m).trans (and_iff_right hm)⟩
    · obtain ⟨fault, herror⟩ := parse_eq_error two_le le_six hread
      rw [herror]
      exact ⟨⟨nofun, fun h => absurd ⟨two_le, le_six⟩ h⟩, fun _ =>
        ⟨⟨nofun, fun h => absurd h hread⟩, ⟨fun _ => hread, fun _ => ⟨fault, rfl⟩⟩, nofun⟩⟩
  · rw [parse_of_count hcount]
    exact ⟨⟨fun _ => hcount, fun _ => ⟨n, _, _, rfl⟩⟩, fun h => absurd h hcount⟩

-- blanks do not part a letter from its marks, two marks cancel out, and
-- a letter of no variable is passed over
example : parse " a ' 'Bx + C0 " 2 = .ok [3] := by rfl

end Karnaugh.Expression
