import Karnaugh.Proofs.ExpressionMeaning

/-!
# Written patterns are read back

`Expression.render` writes a term for each pattern and puts plus signs with
blanks between them. Reading takes the same way back, step by step:

* cutting at the plus signs and trimming gives the terms
  (`Expression.terms_intercalate`);
* scanning a term gives the literals of the pattern
  (`Expression.scan_literals`);
* what the literals require is what the pattern requires
  (`Expression.readTerm_termChars`).

So the patterns come back as they were, in their order and with their
repetitions (`Expression.parsePatterns_render`). Writing what was read from
a text is therefore a normal form of the text
(`Expression.render_normalForm`).
-/

namespace Karnaugh.Expression

open Text

/-! ## Cutting -/

/-- A text that a term can be: not empty, without blanks and without plus
signs. -/
structure Tight (text : List Char) : Prop where
  /-- There is something in it. -/
  ne_nil : text ≠ []
  /-- No blank is in it. -/
  not_blank : ∀ c ∈ text, isBlank c = false
  /-- No plus sign is in it. -/
  not_plus : '+' ∉ text

theorem terms_append {before : List Char} (h : '+' ∉ before) (after : List Char) :
    terms (before ++ '+' :: after) = terms before ++ terms after := by
  unfold terms
  rw [split_append h, split_of_not_mem h, List.map_cons,
    ← List.singleton_append, List.filter_append]
  rfl

/-- A blank before an expression does not count. -/
theorem terms_blank_cons (text : List Char) : terms (' ' :: text) = terms text := by
  obtain ⟨piece, pieces, hs⟩ := exists_split_eq_cons '+' text
  unfold terms
  rw [split_cons_of_ne (by decide) hs, hs, List.map_cons, List.map_cons]
  rfl

theorem trim_of_tight {text : List Char} (h : Tight text) : trim text = text := by
  have htrim : trim ([] ++ text ++ []) = text := trim_append nofun h.ne_nil h.not_blank nofun
  rwa [List.nil_append, List.append_nil] at htrim

theorem trim_append_blank {text : List Char} (h : Tight text) : trim (text ++ [' ']) = text := by
  have htrim : trim ([] ++ text ++ [' ']) = text :=
    trim_append nofun h.ne_nil h.not_blank fun _ hc => List.mem_singleton.mp hc ▸ rfl
  rwa [List.nil_append] at htrim

/-- **Cutting undoes joining.** -/
theorem terms_intercalate {ts : List (List Char)} (hne : ts ≠ []) (h : ∀ t ∈ ts, Tight t) :
    terms ([' ', '+', ' '].intercalate ts) = ts := by
  induction ts with
  | nil => exact absurd rfl hne
  | cons t rest ih =>
    have ht := h t List.mem_cons_self
    cases rest with
    | nil =>
      rw [List.intercalate_singleton, terms, split_of_not_mem ht.not_plus, List.map_singleton,
        trim_of_tight ht]
      exact List.filter_cons_of_pos (by simpa using ht.ne_nil)
    | cons u rest =>
      have hblank : '+' ∉ t ++ [' '] := by
        simpa using ht.not_plus
      have hfirst : terms (t ++ [' ']) = [t] := by
        rw [terms, split_of_not_mem hblank, List.map_singleton, trim_append_blank ht]
        exact List.filter_cons_of_pos (by simpa using ht.ne_nil)
      have hrest := ih (List.cons_ne_nil u rest) fun s hs => h s (List.mem_cons_of_mem t hs)
      -- the blank before a plus sign goes with the term, the one after it with the rest
      have hcut : t ++ [' ', '+', ' '] ++ [' ', '+', ' '].intercalate (u :: rest)
          = (t ++ [' ']) ++ '+' :: ' ' :: [' ', '+', ' '].intercalate (u :: rest) := by
        simp
      rw [List.intercalate_cons_cons, hcut, terms_append hblank, terms_blank_cons, hfirst, hrest]
      rfl

/-! ## Scanning -/

theorem isLetter_variableName_iff {n position k : Nat} (hp : position < maxVariables) :
    IsLetter n (variableName position) k ↔ k = position ∧ position < n := by
  have hupper : ∀ k < 6, variableNames[k]? = some (variableName k).toUpper := by decide
  have hnodup : variableNames.Nodup := by decide
  rw [IsLetter, ← hupper position hp, and_comm]
  constructor
  · rintro ⟨hk, hlt⟩
    obtain rfl := (List.getElem?_inj hp hnodup).mp hk.symm
    exact ⟨rfl, hlt⟩
  · rintro ⟨rfl, hlt⟩
    exact ⟨rfl, hlt⟩

/-- A letter makes a literal where its variable counts. -/
theorem factor?_variableName_of_lt {n position : Nat} (odd : Bool) (hp : position < maxVariables)
    (hn : position < n) :
    factor? n odd (variableName position) = some (.literal ⟨position, odd⟩) :=
  factor?_eq_literal_iff.mpr ⟨(isLetter_variableName_iff hp).mpr ⟨rfl, hn⟩, rfl⟩

/-- Elsewhere it makes nothing. -/
theorem factor?_variableName_of_ge {n position : Nat} (odd : Bool) (hp : position < maxVariables)
    (hn : n ≤ position) : factor? n odd (variableName position) = none := by
  have hconstant : ∀ k < 6, ∀ b : Bool, variableName k ≠ if b then '1' else '0' := by decide
  rw [Option.eq_none_iff_forall_not_mem]
  rintro (l | b) hmem
  · have hletter := (factor?_eq_literal_iff.mp (Option.mem_def.mp hmem)).1
    exact absurd ((isLetter_variableName_iff hp).mp hletter).2 hn.not_gt
  · exact hconstant position hp b (factor?_eq_constant_iff.mp (Option.mem_def.mp hmem))

theorem isMark_variableName {position : Nat} (hp : position < maxVariables) :
    isMark (variableName position) = false := by
  have hall : ∀ k < 6, isMark (variableName k) = false := by decide
  exact hall position hp

/-- **Scanning written literals** gives back those of the variables that count,
and passes over the others with their marks. -/
theorem scan_literals (n : Nat) {ls : List Literal} (h : ∀ l ∈ ls, l.position < maxVariables) :
    scan n (ls.flatMap Literal.toChars)
      = (false, (ls.filter fun l => l.position < n).map Factor.literal) := by
  induction ls with
  | nil => rfl
  | cons l rest ih =>
    have hrest := ih fun k hk => h k (List.mem_cons_of_mem l hk)
    have hl := h l List.mem_cons_self
    have hmark : ¬isMark (variableName l.position) = true := by
      rw [isMark_variableName hl]
      exact Bool.false_ne_true
    obtain ⟨position, negated⟩ := l
    -- the mark of a complemented variable is scanned before its letter
    have hscan : scan n (Literal.toChars ⟨position, negated⟩ ++ rest.flatMap Literal.toChars)
        = (false, (factor? n negated (variableName position)).toList
            ++ (scan n (rest.flatMap Literal.toChars)).2) := by
      cases negated with
      | false =>
        rw [Literal.toChars, if_neg Bool.false_ne_true, List.singleton_append,
          scan_not_mark _ hmark, hrest]
      | true =>
        rw [Literal.toChars, if_pos rfl, List.cons_append, List.singleton_append,
          scan_not_mark _ hmark, scan_mark _ (by decide), hrest]
        rfl
    rw [List.flatMap_cons, hscan, hrest]
    by_cases hn : position < n
    · rw [factor?_variableName_of_lt negated hl hn, List.filter_cons_of_pos (by simpa using hn)]
      rfl
    · rw [factor?_variableName_of_ge negated hl (Nat.le_of_not_lt hn),
        List.filter_cons_of_neg (by simpa using hn)]
      rfl

/-- Scanning a constant. -/
theorem scan_constant (n : Nat) (b : Bool) :
    scan n [if b then '1' else '0'] = (false, [.constant b]) := by
  have hfactor : factor? n (scan n []).1 (if b then '1' else '0') = some (.constant b) :=
    factor?_eq_constant_iff.mpr rfl
  rw [scan_not_mark _ (by cases b <;> decide), hfactor]
  rfl

/-! ## Terms of patterns -/

/-- The literals of a pattern are its requirements. -/
theorem mem_literals {p : Pattern} {l : Literal} :
    l ∈ p.literals ↔ p.bits[l.position]? = some (some !l.negated) := by
  simp only [Pattern.literals, List.mem_filterMap, Prod.exists, List.mem_zipIdx_iff_getElem?,
    Option.map_eq_some_iff]
  constructor
  · rintro ⟨_, position, hp, b, rfl, rfl⟩
    rw [hp, Bool.not_not]
  · intro h
    exact ⟨_, l.position, h, _, rfl, by rw [Bool.not_not]⟩

theorem position_lt_of_mem_literals {p : Pattern} {l : Literal} (h : l ∈ p.literals) :
    l.position < p.numVars :=
  (List.getElem?_eq_some_iff.mp (mem_literals.mp h)).1

/-- The term of a pattern is its literals one after the other, or a one. -/
theorem termChars_cases (p : Pattern) :
    (p.literals = [] ∧ p.termChars = ['1'])
      ∨ (p.literals ≠ [] ∧ p.termChars = p.literals.flatMap Literal.toChars) := by
  unfold Pattern.termChars
  cases hl : p.literals with
  | nil => exact Or.inl ⟨rfl, rfl⟩
  | cons l rest => exact Or.inr ⟨List.cons_ne_nil l rest, rfl⟩

/-- **What a term is written with**: names of variables and the quotes of their
complements, or a one. -/
theorem mem_termChars {p : Pattern} {c : Char} (hc : c ∈ p.termChars) :
    c = '1' ∨ c = '\'' ∨ ∃ k < maxVariables, c = variableName k := by
  rcases termChars_cases p with ⟨-, hchars⟩ | ⟨-, hchars⟩
  · rw [hchars] at hc
    exact .inl (List.mem_singleton.mp hc)
  · rw [hchars] at hc
    obtain ⟨l, hl, hc⟩ := List.mem_flatMap.mp hc
    rcases List.mem_cons.mp hc with rfl | hc
    · exact .inr (.inr ⟨l.position, (position_lt_of_mem_literals hl).trans_le p.le_six, rfl⟩)
    · split at hc
      · exact .inr (.inl (List.mem_singleton.mp hc))
      · cases hc

theorem termChars_ne_nil (p : Pattern) : p.termChars ≠ [] := by
  rcases termChars_cases p with ⟨-, hchars⟩ | ⟨hne, hchars⟩
  · rw [hchars]
    exact List.cons_ne_nil _ _
  · rw [hchars]
    obtain ⟨l, rest, hl⟩ := List.exists_cons_of_ne_nil hne
    rw [hl, List.flatMap_cons]
    exact List.cons_ne_nil _ _

/-- The characters of a term do not end it. -/
theorem tight_termChars (p : Pattern) : Tight p.termChars := by
  have hname : ∀ k < maxVariables, isBlank (variableName k) = false ∧ variableName k ≠ '+' := by
    decide
  refine ⟨termChars_ne_nil p, fun c hc => ?_, fun hc => ?_⟩
  · rcases mem_termChars hc with rfl | rfl | ⟨k, hk, rfl⟩
    · rfl
    · rfl
    · exact (hname k hk).1
  · rcases mem_termChars hc with hplus | hplus | ⟨k, hk, hplus⟩
    · exact absurd hplus (by decide)
    · exact absurd hplus (by decide)
    · exact (hname k hk).2 hplus.symm

theorem compact_of_tight {text : List Char} (h : Tight text) : compact text = text :=
  List.filter_eq_self.mpr fun c hc => by rw [h.not_blank c hc]; rfl

/-- **A term can be read on a number of variables** if it has no letters at all,
or has the letter of one of them. -/
def Legible (n : Nat) (p : Pattern) : Prop :=
  p.literals = [] ∨ ∃ l ∈ p.literals, l.position < n

/-- On as many variables as a pattern has, or more, its term can be read. -/
theorem legible_of_le {n : Nat} {p : Pattern} (h : p.numVars ≤ n) : Legible n p := by
  cases hl : p.literals with
  | nil => exact Or.inl hl
  | cons l rest =>
    have hmem : l ∈ p.literals := hl ▸ List.mem_cons_self
    exact Or.inr ⟨l, hmem, (position_lt_of_mem_literals hmem).trans_le h⟩

/-- **The factors of a written term** are the literals of its pattern that are
about one of the variables, or the constant one where it has no letters. -/
theorem scan_termChars (n : Nat) (p : Pattern) :
    (Legible n p → (scan n p.termChars).2 ≠ [])
      ∧ .constant false ∉ (scan n p.termChars).2
      ∧ ∀ l, .literal l ∈ (scan n p.termChars).2 ↔ l ∈ p.literals ∧ l.position < n := by
  rcases termChars_cases p with ⟨hnil, hchars⟩ | ⟨hne, hchars⟩
  · have hscan : scan n ['1'] = (false, [.constant true]) := scan_constant n true
    rw [hchars, hscan, hnil]
    simp
  · have hscan := scan_literals n fun l (hl : l ∈ p.literals) =>
      (position_lt_of_mem_literals hl).trans_le p.le_six
    rw [hchars, hscan]
    simp [Legible, hne]

/-- **A written term is read as its pattern**, as far as this is about the
variables that it is read on. -/
theorem readTerm_termChars {n : Nat} (two_le : minVariables ≤ n) (le_six : n ≤ maxVariables)
    {p : Pattern} (h : Legible n p) :
    readTerm n p.termChars = .ok (some (p.onVariables two_le le_six)) := by
  have htight := compact_of_tight (tight_termChars p)
  obtain ⟨hne, hzero, hliteral⟩ := scan_termChars n p
  have hnamed : Named n (compact p.termChars) := by
    rw [htight]
    exact not_not.mp (mt scan_eq_nil_iff.mpr (hne h))
  obtain ⟨pattern?, hread, hvars, hcovers⟩ := readTerm_eq_ok two_le le_six hnamed
  set r := p.onVariables two_le le_six with hr
  have hn : r.numVars = n := Pattern.numVars_onVariables
  -- the term is true where the pattern covers
  have htrue : ∀ m < inputCount n,
      TrueAt n m (compact p.termChars) ↔ r.covers m = true := by
    intro m hm
    rw [htight, trueAt_iff, and_iff_right hzero, Pattern.covers_iff, hn, and_iff_right hm,
      Pattern.agrees_iff, show r.bits.length = n from hn]
    simp only [hliteral, mem_literals, hr, Pattern.getElem?_onVariables]
    constructor
    · rintro hall i b ⟨hi, hb⟩
      have hdigit := hall i (!b) ⟨by rwa [Bool.not_not], hi⟩
      rwa [Bool.not_not] at hdigit
    · rintro hall position negated ⟨hb, hi⟩
      exact hall position (!negated) ⟨hi, hb⟩
  obtain ⟨m, hm⟩ := r.exists_mem_covered
  have hmlt : m < inputCount n := hn ▸ Pattern.lt_inputCount_of_mem_covered hm
  obtain ⟨q, hq, -⟩ := (hcovers m hmlt).mpr ((htrue m hmlt).mpr (Pattern.mem_covered.mp hm))
  rw [hread, Option.mem_def.mp hq]
  have hqvars : q.numVars = r.numVars := (hvars q hq).trans hn.symm
  refine congrArg (fun r => Except.ok (some r)) (Pattern.covered_injective hqvars ?_)
  refine eq_of_ascending q.pairwise_covered r.pairwise_covered fun k => ?_
  rw [Pattern.mem_covered, Pattern.mem_covered]
  by_cases hk : k < inputCount n
  · rw [← htrue k hk, ← hcovers k hk]
    refine ⟨fun h => ⟨q, hq, h⟩, fun ⟨q', hq', h⟩ => ?_⟩
    rwa [Option.mem_unique hq hq']
  · simp only [Pattern.covers_iff, hqvars, hn, hk, false_and]

/-! ## Sums of patterns -/

theorem readTerms_termChars {n : Nat} (two_le : minVariables ≤ n) (le_six : n ≤ maxVariables)
    {ps : List Pattern} (h : ∀ p ∈ ps, p.numVars = n) :
    readTerms n (ps.map Pattern.termChars) = .ok ps := by
  induction ps with
  | nil => rfl
  | cons p rest ih =>
    have hn := h p List.mem_cons_self
    have hp := readTerm_termChars two_le le_six (legible_of_le hn.le)
    rw [Pattern.onVariables_self two_le le_six hn] at hp
    rw [List.map_cons, readTerms, hp, ih fun q hq => h q (List.mem_cons_of_mem p hq)]
    rfl

theorem toList_render {ps : List Pattern} (h : ps ≠ []) :
    (render ps).toList = [' ', '+', ' '].intercalate (ps.map Pattern.termChars) := by
  have hmap : (ps.map Pattern.term).map String.toList = ps.map Pattern.termChars := by
    rw [List.map_map]
    refine List.map_congr_left fun p _ => ?_
    rw [Function.comp_apply, Pattern.term, String.toList_ofList]
  obtain ⟨p, rest, rfl⟩ := List.exists_cons_of_ne_nil h
  show (join " + " ((p :: rest).map Pattern.term)).toList = _
  rw [join, String.toList_intercalate, hmap]
  rfl

/-- **Reading undoes writing**: the patterns come back in their order, with
their repetitions. -/
theorem parsePatterns_render {n : Nat} (two_le : minVariables ≤ n) (le_six : n ≤ maxVariables)
    {ps : List Pattern} (h : ∀ p ∈ ps, p.numVars = n) :
    parsePatterns (render ps) n = .ok ps := by
  by_cases hnil : ps = []
  · subst hnil
    have hterms : terms (render []).toList = [['0']] := rfl
    have hfactors : factors n ['0'] = [.constant false] :=
      congrArg Prod.snd (scan_constant n false)
    have hcon : contradictory n [.constant false] = true :=
      contradictory_eq_true_iff.mpr (Or.inl (List.mem_singleton.mpr rfl))
    have hread : readTerm n ['0'] = .ok none := by
      rw [readTerm, hfactors]
      exact if_pos hcon
    rw [parsePatterns_of_terms two_le le_six (by rw [hterms]; decide), hterms, readTerms, hread]
    rfl
  · have hterms : terms (render ps).toList = ps.map Pattern.termChars := by
      rw [toList_render hnil]
      refine terms_intercalate (mt List.map_eq_nil_iff.mp hnil) fun t ht => ?_
      obtain ⟨p, -, rfl⟩ := List.mem_map.mp ht
      exact tight_termChars p
    rw [parsePatterns_of_terms two_le le_six, hterms, readTerms_termChars two_le le_six h]
    · rfl
    · rw [hterms]
      exact mt List.map_eq_nil_iff.mp hnil

/-- The minterms of a written sum are those of its patterns. -/
theorem parse_render {n : Nat} (two_le : minVariables ≤ n) (le_six : n ≤ maxVariables)
    {ps : List Pattern} (h : ∀ p ∈ ps, p.numVars = n) :
    parse (render ps) n = .ok (ascending (ps.flatMap Pattern.covered)) := by
  rw [parse, parsePatterns_render two_le le_six h]
  refine congrArg Except.ok (eq_of_ascending (List.Pairwise.filter _ List.pairwise_lt_range)
    (pairwise_ascending _) fun m => ?_)
  rw [coveredByAny, List.mem_filter, List.mem_range, List.any_eq_true, mem_ascending,
    List.mem_flatMap]
  constructor
  · rintro ⟨-, p, hp, hm⟩
    exact ⟨p, hp, Pattern.mem_covered.mpr hm⟩
  · rintro ⟨p, hp, hm⟩
    have hlt := Pattern.lt_inputCount_of_mem_covered hm
    rw [h p hp] at hlt
    exact ⟨hlt, p, hp, Pattern.mem_covered.mp hm⟩

/-! ## The normal form of an expression -/

theorem parse_of_parsePatterns {expression : String} {n : Nat} {qs : List Pattern}
    (h : parsePatterns expression n = .ok qs) :
    parse expression n = .ok (coveredByAny n qs) := by
  rw [parse, h]
  rfl

/-- **What an accepted text is read into** are patterns for the number of
variables that it was read for, which is one that an expression can have. -/
theorem numVars_of_parsePatterns {expression : String} {n : Nat} {qs : List Pattern}
    (h : parsePatterns expression n = .ok qs) :
    minVariables ≤ n ∧ n ≤ maxVariables ∧ ∀ q ∈ qs, q.numVars = n := by
  have hparse := parse_of_parsePatterns h
  by_cases hcount : minVariables ≤ n ∧ n ≤ maxVariables
  · obtain ⟨two_le, le_six⟩ := hcount
    refine ⟨two_le, le_six, ?_⟩
    by_cases hread : Readable n expression.toList
    · obtain ⟨hterms, hnamed⟩ := readable_iff.mp hread
      obtain ⟨patterns, hpatterns, hvars, -⟩ := readTerms_eq_ok two_le le_six hnamed
      rw [parsePatterns_of_terms two_le le_six hterms, hpatterns] at h
      cases h
      exact hvars
    · obtain ⟨fault, herror⟩ := parse_eq_error two_le le_six hread
      rw [hparse] at herror
      cases herror
  · rw [parse_of_count hcount] at hparse
    cases hparse

/-- **Writing and reading a sum of products.** A list of patterns is written
as a text from which the same list is read, in its order and with its
repetitions, and the minterms of the text are those that some pattern
covers. So whatever text was read into patterns, writing these gives a normal
form of it: reading this form gives the same patterns, and the same minterms
as the text. -/
theorem render_normalForm (n : Nat) (two_le : minVariables ≤ n) (le_six : n ≤ maxVariables) :
    (∀ ps : List Pattern, (∀ p ∈ ps, p.numVars = n) →
      parsePatterns (render ps) n = .ok ps
        ∧ parse (render ps) n = .ok (ascending (ps.flatMap Pattern.covered)))
    ∧ ∀ (expression : String) (qs : List Pattern), parsePatterns expression n = .ok qs →
      parsePatterns (render qs) n = .ok qs ∧ parse (render qs) n = parse expression n := by
  refine ⟨fun ps h => ⟨parsePatterns_render two_le le_six h, parse_render two_le le_six h⟩,
    fun expression qs h => ?_⟩
  obtain ⟨-, -, hvars⟩ := numVars_of_parsePatterns h
  have hrender := parsePatterns_render two_le le_six hvars
  exact ⟨hrender, by rw [parse_of_parsePatterns hrender, parse_of_parsePatterns h]⟩

/-- The theorem at a list that repeats a pattern around one that requires
nothing, and at a text with a term that is never true. -/
theorem render_normalForm_three :
    minVariables ≤ 3 ∧ 3 ≤ maxVariables
      ∧ parsePatterns
          (render [⟨[some false, none, some true], by decide, by decide⟩,
            ⟨[none, none, none], by decide, by decide⟩,
            ⟨[some false, none, some true], by decide, by decide⟩]) 3
        = .ok [⟨[some false, none, some true], by decide, by decide⟩,
            ⟨[none, none, none], by decide, by decide⟩,
            ⟨[some false, none, some true], by decide, by decide⟩]
      ∧ parse (render [⟨[none, some true, some false], by decide, by decide⟩]) 3
        = parse "c' * b + A!A" 3 := by
  have hread : parsePatterns "c' * b + A!A" 3
      = .ok [⟨[none, some true, some false], by decide, by decide⟩] := by rfl
  obtain ⟨hpatterns, htext⟩ := render_normalForm 3 (by decide) (by decide)
  exact ⟨by decide, by decide, (hpatterns _ (by decide)).1, (htext _ _ hread).2⟩

end Karnaugh.Expression
