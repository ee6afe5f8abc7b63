/-!
# Blank characters

Expressions, grids and number lists may be spread out freely: blanks
around an entry do not count. Blank means the Unicode property
`White_Space`, which holds of twenty-five characters, and not only of the
ASCII ones.

`trim` removes the blanks at both ends of a text, and `compact` removes
all of them.
-/

namespace Karnaugh.Text

/-- **Blank characters**: the Unicode property `White_Space`. -/
def isBlank (c : Char) : Bool :=
  let n := c.toNat
  (0x09 ≤ n && n ≤ 0x0D) || n == 0x20 || n == 0x85 || n == 0xA0 || n == 0x1680
    || (0x2000 ≤ n && n ≤ 0x200A) || n == 0x2028 || n == 0x2029 || n == 0x202F
    || n == 0x205F || n == 0x3000

/-- The text without the blanks it starts with. -/
def trimStart (text : List Char) : List Char :=
  text.dropWhile isBlank

/-- The text without the blanks it ends with. -/
def trimEnd (text : List Char) : List Char :=
  (text.reverse.dropWhile isBlank).reverse

/-- **The text without the blanks at its two ends.** -/
def trim (text : List Char) : List Char :=
  trimEnd (trimStart text)

/-- **The text without any blank.** -/
def compact (text : List Char) : List Char :=
  text.filter fun c => !isBlank c

/-- A digit is not blank. -/
theorem not_isBlank_of_isDigit {c : Char} (h : c.isDigit) : isBlank c = false := by
  simp only [Char.isDigit, Bool.and_eq_true, decide_eq_true_eq] at h
  have hlow : 48 ≤ c.toNat := h.1
  have hhigh : c.toNat ≤ 57 := h.2
  simp only [isBlank, Bool.or_eq_false_iff, Bool.and_eq_false_iff, decide_eq_false_iff_not,
    beq_eq_false_iff_ne]
  omega

@[simp]
theorem compact_nil : compact [] = [] := rfl

theorem compact_cons_of_isBlank {c : Char} (h : isBlank c = true) (text : List Char) :
    compact (c :: text) = compact text :=
  List.filter_cons_of_neg (by simp [h])

theorem compact_cons_of_not_isBlank {c : Char} (h : isBlank c = false) (text : List Char) :
    compact (c :: text) = c :: compact text :=
  List.filter_cons_of_pos (by simp [h])

theorem trimStart_append {before text : List Char} (hbefore : ∀ c ∈ before, isBlank c = true)
    (hne : text ≠ []) (htext : ∀ c ∈ text, isBlank c = false) (after : List Char) :
    trimStart (before ++ text ++ after) = text ++ after := by
  obtain ⟨c, rest, rfl⟩ := List.exists_cons_of_ne_nil hne
  have hc : ¬isBlank c = true := by
    rw [htext c List.mem_cons_self]
    exact Bool.false_ne_true
  rw [trimStart, List.append_assoc, List.dropWhile_append_of_pos hbefore, List.cons_append,
    List.dropWhile_cons_of_neg hc]

/-- **Trimming removes the blanks around a text**, and nothing else where the text
has none. -/
theorem trim_append {before text after : List Char} (hbefore : ∀ c ∈ before, isBlank c = true)
    (hne : text ≠ []) (htext : ∀ c ∈ text, isBlank c = false)
    (hafter : ∀ c ∈ after, isBlank c = true) :
    trim (before ++ text ++ after) = text := by
  -- what stands at the end stands at the start of the reversed text
  have hend : trimStart (after.reverse ++ text.reverse ++ []) = text.reverse ++ [] :=
    trimStart_append (fun c hc => hafter c (List.mem_reverse.mp hc))
      (List.reverse_ne_nil_iff.mpr hne) (fun c hc => htext c (List.mem_reverse.mp hc)) []
  rw [List.append_nil, List.append_nil] at hend
  rw [trim, trimStart_append hbefore hne htext, trimEnd, List.reverse_append]
  show (trimStart (after.reverse ++ text.reverse)).reverse = text
  rw [hend, List.reverse_reverse]

/-- **Trimming removes nothing but blanks**, at the two ends. -/
theorem exists_eq_append_trim (text : List Char) :
    ∃ before after, (∀ c ∈ before, isBlank c = true) ∧ (∀ c ∈ after, isBlank c = true)
      ∧ text = before ++ trim text ++ after := by
  have hblank : ∀ t : List Char, ∀ c ∈ t.takeWhile isBlank, isBlank c = true := fun t =>
    List.all_eq_true.mp List.all_takeWhile
  refine ⟨text.takeWhile isBlank, ((trimStart text).reverse.takeWhile isBlank).reverse,
    hblank text, fun c hc => hblank _ c (List.mem_reverse.mp hc), ?_⟩
  rw [trim, trimEnd, List.append_assoc, ← List.reverse_append, List.takeWhile_append_dropWhile,
    List.reverse_reverse, trimStart, List.takeWhile_append_dropWhile]

theorem compact_trimStart (text : List Char) : compact (trimStart text) = compact text := by
  unfold trimStart
  induction text with
  | nil => rfl
  | cons c rest ih =>
    by_cases hc : isBlank c = true
    · rw [List.dropWhile_cons_of_pos hc, ih, compact_cons_of_isBlank hc]
    · rw [List.dropWhile_cons_of_neg hc]

theorem compact_trim (text : List Char) : compact (trim text) = compact text := by
  have hend : ∀ t : List Char, compact (trimEnd t) = compact t := by
    intro t
    have hrev := compact_trimStart t.reverse
    unfold compact trimStart at hrev
    unfold compact trimEnd
    rw [List.filter_reverse, hrev, List.filter_reverse, List.reverse_reverse]
  rw [trim, hend, compact_trimStart]

theorem compact_eq_nil_iff {text : List Char} :
    compact text = [] ↔ ∀ c ∈ text, isBlank c = true := by
  simp [compact]

/-- Nothing is left of a text by trimming when all of it is blank. -/
theorem trim_eq_nil_iff {text : List Char} : trim text = [] ↔ ∀ c ∈ text, isBlank c = true := by
  rw [← compact_eq_nil_iff]
  constructor
  · intro h
    rw [← compact_trim, h, compact_nil]
  · intro h
    have hstart : trimStart (text ++ []) = [] :=
      List.dropWhile_append_of_pos (compact_eq_nil_iff.mp h)
    rw [List.append_nil] at hstart
    rw [trim, hstart]
    rfl

end Karnaugh.Text
