import Karnaugh.Proofs.Drawings
import Karnaugh.Proofs.Rendering

/-!
# Loops and the terms on them

A loop goes around the minterms of an implicant and bears the term of its
pattern. Whoever looks at the map reads the term with the variables of the map,
and not with those of the pattern. This module says when the two agree, on any
geometry and for patterns of any length.

A term read on some number of variables is its pattern *there*
(`Expression.parse_term`): the letters of further variables are passed over, and
nothing is required of variables without a letter. So three cases are to be told
apart.

* A pattern of the map's own variables is read as itself.
* A shorter pattern is read as one that leaves the last variables open. It then
  covers minterms beyond all those that the loop goes around
  (`Pattern.covered_onVariables_ne`).
* A longer pattern has a loop only if it requires its leading variables to be
  zero, so that its minterms are on the map. Of the term only the letters of the
  map are read, from the front, while the loop follows the requirements at the
  end. These are the same only where everything is required to be zero
  (`Pattern.covered_onVariables_eq_iff`).
-/

namespace Karnaugh

namespace Pattern

variable {p : Pattern} {n : Nat} {two_le : minVariables ≤ n} {le_six : n ≤ maxVariables}

/-! ## Shorter patterns -/

/-- What is covered on other variables, by its digits. -/
theorem mem_covered_onVariables {m : Nat} :
    m ∈ (p.onVariables two_le le_six).covered
      ↔ m < 2 ^ n ∧ ∀ (i : Nat) (b : Bool), i < n → p.bits[i]? = some (some b)
          → m.testBit (n - 1 - i) = b := by
  have hlength : (p.onVariables two_le le_six).bits.length = n := numVars_onVariables
  rw [mem_covered, covers_iff, numVars_onVariables, agrees_iff, hlength]
  simp only [getElem?_onVariables, and_imp]
  rfl

/-- **A shorter pattern covers more on further variables**: a minterm with a
further digit after those of the greatest one it covers. -/
theorem covered_onVariables_ne (h : p.numVars < n) :
    (p.onVariables two_le le_six).covered ≠ p.covered := by
  intro heq
  obtain ⟨x, hx, hmax⟩ := p.covered.toFinset.exists_max_image id
    (by simpa [Finset.Nonempty] using p.exists_mem_covered)
  rw [List.mem_toFinset] at hx
  obtain ⟨hlt, hagree⟩ := covers_iff.mp (mem_covered.mp hx)
  set j := n - p.numVars with hj
  have hshift : (x * 2 ^ j + 1) >>> j = x := by
    rw [Nat.shiftRight_eq_div_pow, Nat.mul_comm, Nat.mul_add_div (Nat.two_pow_pos j),
      Nat.div_eq_of_lt (Nat.one_lt_two_pow (by omega)), Nat.add_zero]
  have hnext : x * 2 ^ j + 1 ∈ (p.onVariables two_le le_six).covered := by
    refine mem_covered_onVariables.mpr ⟨?_, fun i b hi hb => ?_⟩
    · have hsucc : x + 1 ≤ 2 ^ p.numVars := hlt
      have hone : 1 < 2 ^ j := Nat.one_lt_two_pow (by omega)
      calc x * 2 ^ j + 1 < x * 2 ^ j + 2 ^ j := by omega
        _ = (x + 1) * 2 ^ j := (Nat.succ_mul x (2 ^ j)).symm
        _ ≤ 2 ^ p.numVars * 2 ^ j := Nat.mul_le_mul_right _ hsucc
        _ = 2 ^ n := by rw [← Nat.pow_add]; congr 1; omega
    · have hip : i < p.numVars := (List.getElem?_eq_some_iff.mp hb).1
      have hdigit := agrees_iff.mp hagree i b hb
      rw [← hshift, Nat.testBit_shiftRight] at hdigit
      rw [← hdigit]
      congr 1
      show n - 1 - i = j + (p.numVars - 1 - i)
      omega
  rw [heq] at hnext
  have hle := hmax _ (List.mem_toFinset.mpr hnext)
  have hgrow : x ≤ x * 2 ^ j := Nat.le_mul_of_pos_right x (Nat.two_pow_pos j)
  exact absurd hle (by simp only [id]; omega)

/-! ## Longer patterns -/

/-- **What covers small numbers only** requires its leading variables to be
zero. -/
theorem getElem?_of_covered_lt (h : ∀ m ∈ p.covered, m < 2 ^ n) {i : Nat}
    (hi : i < p.numVars - n) : p.bits[i]? = some (some false) := by
  by_contra hne
  -- a minterm with a one at the position, which nothing forbids
  obtain ⟨m, hm, hdigits⟩ := exists_testBit_eq p.numVars fun k =>
    if k = i then true else (p.bit k).getD false
  have hcovered : m ∈ p.covered := by
    refine mem_covered.mpr (covers_iff.mpr ⟨hm, agrees_iff.mpr fun k b hb => ?_⟩)
    have hk : k < p.numVars := (List.getElem?_eq_some_iff.mp hb).1
    show m.testBit (p.numVars - 1 - k) = b
    rw [hdigits k hk]
    by_cases hki : k = i
    · subst hki
      rw [if_pos rfl]
      cases b with
      | true => rfl
      | false => exact absurd hb hne
    · rw [if_neg hki, bit_eq_some_iff.mpr hb]
      rfl
  have hone : m.testBit (p.numVars - 1 - i) = true := by
    rw [hdigits i (by omega), if_pos rfl]
  have hge := Nat.ge_two_pow_of_testBit hone
  have hpow : 2 ^ n ≤ 2 ^ (p.numVars - 1 - i) := Nat.pow_le_pow_right (by decide) (by omega)
  exact absurd (h m hcovered) (by omega)

theorem length_drop_bits (hn : n ≤ p.numVars) : (p.bits.drop (p.numVars - n)).length = n :=
  List.length_drop.trans (Nat.sub_sub_self hn)

/-- **The end of a longer pattern**, about the last `n` variables. -/
def trailing (two_le : minVariables ≤ n) (le_six : n ≤ maxVariables) (p : Pattern)
    (hn : n ≤ p.numVars) : Pattern :=
  ⟨p.bits.drop (p.numVars - n), (length_drop_bits hn).symm ▸ two_le,
    (length_drop_bits hn).symm ▸ le_six⟩

theorem numVars_trailing (hn : n ≤ p.numVars) : (p.trailing two_le le_six hn).numVars = n :=
  length_drop_bits hn

/-- **A longer pattern on the map** covers what its end covers. -/
theorem covered_trailing (hn : n ≤ p.numVars) (h : ∀ m ∈ p.covered, m < 2 ^ n) :
    (p.trailing two_le le_six hn).covered = p.covered := by
  have hparts : p.bits = p.bits.take (p.numVars - n) ++ p.bits.drop (p.numVars - n) :=
    (List.take_append_drop _ _).symm
  refine eq_of_ascending (pairwise_covered _) (pairwise_covered _) fun m => ?_
  rw [mem_covered, mem_covered, covers_iff, covers_iff, numVars_trailing]
  have hsplit : m < 2 ^ n → (agrees p.bits m = true
      ↔ agrees (p.bits.take (p.numVars - n)) 0 = true
        ∧ agrees (p.bits.drop (p.numVars - n)) m = true) := by
    intro hm
    rw [hparts, agrees_append, ← hparts, length_drop_bits hn, Nat.shiftRight_eq_div_pow, Nat.div_eq_of_lt hm,
      Nat.mod_eq_of_lt hm]
  constructor
  · rintro ⟨hm, hagree⟩
    refine ⟨hm.trans_le (Nat.pow_le_pow_right (by decide) hn), (hsplit hm).mpr ⟨?_, hagree⟩⟩
    -- the leading digits of a small number are zero, as they have to be
    refine agrees_iff.mpr fun i b hb => ?_
    have hi : i < p.numVars - n := by
      have hlt := (List.getElem?_eq_some_iff.mp hb).1
      rw [List.length_take] at hlt
      omega
    rw [List.getElem?_take_of_lt hi, getElem?_of_covered_lt h hi] at hb
    cases hb
    exact Nat.zero_testBit _
  · rintro ⟨hlt, hagree⟩
    have hm := h m (mem_covered.mpr (covers_iff.mpr ⟨hlt, hagree⟩))
    exact ⟨hm, ((hsplit hm).mp hagree).2⟩

/-- **Read from the front and followed at the end**, a longer pattern on the map
is the same only where it requires zeros and nothing else. -/
theorem covered_onVariables_eq_iff (hn : n < p.numVars) (h : ∀ m ∈ p.covered, m < 2 ^ n) :
    (p.onVariables two_le le_six).covered = p.covered ↔ ∀ r ∈ p.bits, r = some false := by
  have hend : (p.trailing two_le le_six hn.le).covered = p.covered := covered_trailing hn.le h
  rw [← hend]
  constructor
  · intro heq
    have hsame := covered_injective (numVars_onVariables.trans (numVars_trailing hn.le).symm) heq
    have hshift : ∀ i < n, p.bits[i]? = some (some false)
        → p.bits[p.numVars - n + i]? = some (some false) := by
      intro i hi hzero
      have hfront : (p.onVariables two_le le_six).bits[i]? = some (some false) :=
        getElem?_onVariables.mpr ⟨hi, hzero⟩
      rwa [hsame, trailing, List.getElem?_drop] at hfront
    -- the zeros at the front are carried on to the end, step by step
    have hall : ∀ i < p.numVars, p.bits[i]? = some (some false) := by
      intro i
      induction i using Nat.strong_induction_on with
      | _ i ih =>
        intro hi
        rcases Nat.lt_or_ge i (p.numVars - n) with hlt | hge
        · exact getElem?_of_covered_lt h hlt
        · have hback := hshift (i - (p.numVars - n)) (by omega) (ih _ (by omega) (by omega))
          rwa [Nat.add_sub_cancel' hge] at hback
    intro r hr
    obtain ⟨i, hi, rfl⟩ := List.mem_iff_getElem.mp hr
    have hzero := hall i hi
    rwa [List.getElem?_eq_getElem hi, Option.some.injEq] at hzero
  · intro hall
    have hfront : (p.onVariables two_le le_six).bits = List.replicate n (some false) := by
      refine List.eq_replicate_iff.mpr ⟨numVars_onVariables, fun r hr => ?_⟩
      obtain ⟨i, hi, rfl⟩ := List.mem_map.mp hr
      have hlt : i < p.bits.length := (List.mem_range.mp hi).trans hn
      rw [bit, List.getElem?_eq_getElem hlt, hall _ (List.getElem_mem hlt)]
      rfl
    have hback : (p.trailing two_le le_six hn.le).bits = List.replicate n (some false) :=
      List.eq_replicate_iff.mpr
        ⟨numVars_trailing hn.le, fun r hr => hall r (List.mem_of_mem_drop hr)⟩
    rw [ext_bits (hfront.trans hback.symm)]

end Pattern

/-! ## Reading a term -/

/-- **A term read on some number of variables** is its pattern there. -/
theorem Expression.parse_term {n : Nat} (two_le : minVariables ≤ n) (le_six : n ≤ maxVariables)
    {p : Pattern} (h : Legible n p) :
    parse p.term n = .ok (p.onVariables two_le le_six).covered := by
  have hterms : terms p.term.toList = [p.termChars] := by
    have hone := terms_intercalate (List.cons_ne_nil p.termChars [])
      fun t ht => List.mem_singleton.mp ht ▸ tight_termChars p
    rw [List.intercalate_singleton] at hone
    rw [Pattern.term, String.toList_ofList, hone]
  have hpatterns : parsePatterns p.term n = .ok [p.onVariables two_le le_six] := by
    rw [parsePatterns_of_terms two_le le_six (by rw [hterms]; exact List.cons_ne_nil _ _), hterms,
      readTerms, readTerm_termChars two_le le_six h]
    rfl
  rw [parse_of_parsePatterns hpatterns, coveredByAny, Pattern.covered, Pattern.numVars_onVariables]
  simp only [List.any_cons, List.any_nil, Bool.or_false]

/-- The term of a pattern with small numbers can be read: if the pattern is a
longer one, its first variable has a letter. -/
theorem Expression.legible_of_covered_lt {n : Nat} (hn : 0 < n) {p : Pattern}
    (h : ∀ m ∈ p.covered, m < 2 ^ n) : Legible n p := by
  rcases Nat.lt_or_ge n p.numVars with hlt | hle
  · have hfirst : (⟨0, true⟩ : Literal) ∈ p.literals :=
      mem_literals.mpr (Pattern.getElem?_of_covered_lt h (Nat.sub_pos_of_lt hlt))
    exact Or.inr ⟨_, hfirst, hn⟩
  · exact legible_of_le hle

/-! ## Loops on any geometry -/

namespace Canvas

variable {canvas : Canvas} {largest index : Nat} {i : Implicant} {l : Loop}

/-- **A loop is labelled for the implicant** at a place: it has its color, its
pattern and its term, and goes around its minterms. -/
structure Labels (canvas : Canvas) (index : Nat) (i : Implicant) (l : Loop) : Prop where
  /-- The place. -/
  index_eq : l.index = index
  /-- The color, from the colors in turn. -/
  color_eq : l.color = canvas.colors.getD (index % canvas.colors.length) ""
  /-- The pattern. -/
  pattern_eq : l.pattern = i.pattern
  /-- The term of the pattern. -/
  term_eq : l.term = i.pattern.term
  /-- The minterms, brought into order. -/
  minterms_eq : l.minterms = ascending i.minterms

/-- What there is of a loop comes from its implicant, its region and the shapes of
this. -/
theorem exists_loopOf_of_drawLoop (h : canvas.drawLoop largest index i = .ok l) :
    ¬canvas.Misstates i
      ∧ ∃ region shapes, Region.classify canvas.layout (ascending i.minterms) = .ok region
        ∧ l = canvas.loopOf largest index i region shapes := by
  rcases canvas.drawLoop_cases_any i with
    ⟨-, herror⟩ | ⟨-, fault, -, herror⟩ | ⟨hmis, region, hregion, hmap⟩
  · cases (herror largest index).symm.trans h
  · cases (herror largest index).symm.trans h
  · obtain ⟨shapes, -, rfl⟩ := exists_of_map_eq_ok ((hmap largest index).symm.trans h)
    exact ⟨hmis, region, shapes, hregion, rfl⟩

/-- **What a loop tells of its implicant**, whatever the geometry: it can be
drawn, and the loop is labelled for it. -/
theorem labels_of_drawLoop (h : canvas.drawLoop largest index i = .ok l) :
    canvas.CanDraw i ∧ canvas.Labels index i l := by
  obtain ⟨hmis, region, shapes, hregion, rfl⟩ := exists_loopOf_of_drawLoop h
  exact ⟨⟨hmis, region, hregion⟩, rfl, rfl, rfl, rfl, rfl⟩

/-- A loop of a drawing is the loop of an implicant. -/
theorem exists_drawLoop_of_mem {is : List Implicant} {d : Drawing}
    (h : canvas.drawFrom largest index is = .ok d) (hl : l ∈ d.loops) :
    ∃ i ∈ is, ∃ k, canvas.drawLoop largest k i = .ok l := by
  induction is generalizing index d with
  | nil =>
    cases h
    cases hl
  | cons i rest ih =>
    -- in either case the rest is drawn, and its loops come after the one of the first
    have hlater : ∀ {d'}, canvas.drawFrom largest (index + 1) rest = .ok d' → l ∈ d'.loops →
        ∃ j ∈ i :: rest, ∃ k, canvas.drawLoop largest k j = .ok l := by
      intro d' hrest hl'
      obtain ⟨j, hj, k, hk⟩ := ih hrest hl'
      exact ⟨j, List.mem_cons_of_mem i hj, k, hk⟩
    cases hfirst : canvas.drawLoop largest index i with
    | ok loop =>
      rw [drawFrom_cons_of_ok hfirst] at h
      obtain ⟨d', hrest, rfl⟩ := exists_of_map_eq_ok h
      rcases List.mem_cons.mp hl with rfl | hl'
      · exact ⟨i, List.mem_cons_self, index, hfirst⟩
      · exact hlater hrest hl'
    | error e =>
      cases he : e.recoverable with
      | true =>
        rw [drawFrom_cons_of_recoverable hfirst he] at h
        obtain ⟨d', hrest, rfl⟩ := exists_of_map_eq_ok h
        exact hlater hrest hl
      | false =>
        rw [drawFrom_cons_of_fatal hfirst he] at h
        cases h

/-! ## Terms of loops -/

/-- A map of two variables with cells of equal size, on which minterms are
compared with patterns. -/
def smallMap : Canvas where
  layout := ⟨2, by decide, by decide⟩
  geometry := (⟨0, 0, 50, 50, 2, 2, 2⟩ : UniformGeometry).boxOf
  style := ⟨6, 12⟩
  palette := []
  crossCheck := true

/-- A pattern that fits on the small map has a loop there. -/
theorem exists_loop_smallMap (p : Pattern) (region : Region)
    (hregion : Region.classify smallMap.layout p.covered = .ok region) :
    ∃ d l, smallMap.draw [Implicant.ofPattern p] = .ok d ∧ l ∈ d.loops
      ∧ l.pattern = p ∧ l.term = p.term ∧ l.minterms = p.covered := by
  have hgeometry : smallMap.geometry.Has smallMap.layout := UniformGeometry.has rfl rfl
  have hsorted : ascending p.covered = p.covered := ascending_eq_self p.pairwise_covered
  have hdraw : smallMap.CanDraw (Implicant.ofPattern p) :=
    ⟨fun hmis => hmis.2 hsorted.symm, region, by rw [← hregion]; exact congrArg _ hsorted⟩
  obtain ⟨l, hok, -⟩ := drawLoop_of_canDraw hgeometry hdraw
  obtain ⟨-, hlabels⟩ := labels_of_drawLoop hok
  have hfirst : [Implicant.ofPattern p][0]? = some (Implicant.ofPattern p) := rfl
  exact ⟨_, l, draw_eq hgeometry _, ((mem_loops_drawingOf hgeometry hfirst).mpr hok).1,
    hlabels.pattern_eq, hlabels.term_eq, hlabels.minterms_eq.trans hsorted⟩

/-- **When a loop is what its term says.** Where minterms are compared with
patterns, the term of every loop of a drawing can be read on the map, whatever
the geometry, the style and the colors are. It stands for the minterms that the
loop goes around exactly if the pattern is one of the map's variables, or one of
more variables that requires all of them to be zero. -/
theorem draw_term_iff (hcheck : canvas.crossCheck = true) (is : List Implicant) (d : Drawing)
    (hd : canvas.draw is = .ok d) :
    ∀ l ∈ d.loops, ∃ ms, Expression.parse l.term canvas.layout.numVars = .ok ms
      ∧ (l.minterms = ms ↔ l.pattern.numVars = canvas.layout.numVars
          ∨ canvas.layout.numVars < l.pattern.numVars
            ∧ ∀ r ∈ l.pattern.bits, r = some false) := by
  intro l hl
  obtain ⟨i, -, k, hk⟩ := exists_drawLoop_of_mem hd hl
  obtain ⟨⟨hstates, hregion⟩, hlabels⟩ := labels_of_drawLoop hk
  have hcovered : l.minterms = l.pattern.covered := by
    rw [hlabels.minterms_eq, hlabels.pattern_eq]
    exact (not_not.mp fun hne => hstates ⟨hcheck, hne⟩).symm
  have hterm : l.term = l.pattern.term := hlabels.term_eq.trans (hlabels.pattern_eq ▸ rfl)
  -- what is drawn is on the map
  have hlt : ∀ m ∈ l.pattern.covered, m < 2 ^ canvas.layout.numVars := by
    obtain ⟨q, hq, hmem⟩ := Region.exists_region_iff.mp hregion
    intro m hm
    rw [← hcovered, hlabels.minterms_eq, hmem] at hm
    exact hq ▸ Pattern.lt_inputCount_of_mem_covered hm
  have two_le : minVariables ≤ canvas.layout.numVars := canvas.layout.two_le
  have le_six : canvas.layout.numVars ≤ maxVariables := canvas.layout.le_four.trans (by decide)
  have hlegible := Expression.legible_of_covered_lt (Nat.lt_of_lt_of_le (by decide) two_le) hlt
  refine ⟨_, hterm ▸ Expression.parse_term two_le le_six hlegible, ?_⟩
  rw [hcovered, eq_comm]
  rcases Nat.lt_trichotomy l.pattern.numVars canvas.layout.numVars with hless | heq | hmore
  · simp only [Pattern.covered_onVariables_ne hless, hless.ne, hless.not_gt, false_and, or_false]
  · simp only [Pattern.onVariables_self two_le le_six heq, heq, true_or]
  · simp only [Pattern.covered_onVariables_eq_iff hmore hlt, hmore.ne', hmore, true_and, false_or]

/-- The theorem at a pattern of the map and at a longer one of zeros: both are
what their terms say. -/
theorem draw_term_iff_smallMap :
    smallMap.crossCheck = true
      ∧ (∃ d l, smallMap.draw [Implicant.ofPattern ⟨[some true, none], by decide, by decide⟩]
            = .ok d
          ∧ l ∈ d.loops ∧ Expression.parse l.term 2 = .ok l.minterms)
      ∧ ∃ d l, smallMap.draw
            [Implicant.ofPattern ⟨[some false, some false, some false], by decide, by decide⟩]
            = .ok d
          ∧ l ∈ d.loops ∧ Expression.parse l.term 2 = .ok l.minterms := by
  refine ⟨rfl, ?_, ?_⟩
  · obtain ⟨d, l, hd, hl, hpattern, -⟩ := exists_loop_smallMap
      ⟨[some true, none], by decide, by decide⟩ (.rectangle (.run 1 1) (.run 0 1)) (by decide)
    obtain ⟨ms, hparse, hiff⟩ := draw_term_iff rfl _ d hd l hl
    exact ⟨d, l, hd, hl, hiff.mpr (Or.inl (hpattern ▸ rfl)) ▸ hparse⟩
  · obtain ⟨d, l, hd, hl, hpattern, -⟩ := exists_loop_smallMap
      ⟨[some false, some false, some false], by decide, by decide⟩
      (.rectangle (.run 0 0) (.run 0 0)) (by decide)
    obtain ⟨ms, hparse, hiff⟩ := draw_term_iff rfl _ d hd l hl
    refine ⟨d, l, hd, hl, hiff.mpr (Or.inr ⟨?_, ?_⟩) ▸ hparse⟩
    · rw [hpattern]
      decide
    · rw [hpattern]
      decide

/-- **A loop is not always what its term says**: on a map of two variables, the
pattern `01-` has a loop around the minterms two and three. Its term `A'B`
stands there for the minterm one. -/
theorem exists_draw_term_ne :
    ∃ d l, smallMap.draw
        [Implicant.ofPattern ⟨[some false, some true, none], by decide, by decide⟩] = .ok d
      ∧ l ∈ d.loops ∧ l.term = "A'B" ∧ l.minterms = [2, 3]
      ∧ Expression.parse l.term smallMap.layout.numVars = .ok [1] := by
  obtain ⟨d, l, hd, hl, -, hterm, hminterms⟩ := exists_loop_smallMap
    ⟨[some false, some true, none], by decide, by decide⟩ (.rectangle (.run 1 1) (.run 0 1))
    (by decide)
  refine ⟨d, l, hd, hl, hterm, hminterms, ?_⟩
  rw [hterm]
  rfl

end Canvas

end Karnaugh
