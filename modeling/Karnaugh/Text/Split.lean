/-!
# Pieces of a text

A list in a text is a sequence of pieces with a separator between each
two: minterms are separated by commas, terms by plus signs, parameters by
ampersands. `split` takes a text apart at every separator and
`join` puts pieces together. Pieces without the separator come back from
the text they were put together to (`split_intercalate`), and every text
is put together from such pieces (`isList_split`).
-/

namespace Karnaugh.Text

/-- **The pieces between the separators**, empty ones included: there is
one more than there are separators. -/
def split (separator : Char) : List Char → List (List Char)
  | [] => [[]]
  | c :: rest =>
    if c = separator then [] :: split separator rest
    else
      match split separator rest with
      | [] => [[c]]
      | piece :: pieces => (c :: piece) :: pieces

/-- **The text on either side of the first separator**, if there is one. -/
def splitOnce (separator : Char) : List Char → Option (List Char × List Char)
  | [] => none
  | c :: rest =>
    if c = separator then some ([], rest)
    else (splitOnce separator rest).map fun (before, after) => (c :: before, after)

/-- The pieces one after the other with `separator` between each two. -/
def join (separator : String) (pieces : List String) : String :=
  separator.intercalate pieces

theorem split_ne_nil (separator : Char) (text : List Char) : split separator text ≠ [] := by
  induction text with
  | nil => simp [split]
  | cons c rest ih =>
    rw [split]
    split
    · simp
    · split <;> simp

theorem exists_split_eq_cons (separator : Char) (text : List Char) :
    ∃ piece pieces, split separator text = piece :: pieces :=
  List.exists_cons_of_ne_nil (split_ne_nil separator text)

theorem split_cons_self (separator : Char) (rest : List Char) :
    split separator (separator :: rest) = [] :: split separator rest := by
  rw [split, if_pos rfl]

theorem split_cons_of_ne {separator c : Char} {rest piece : List Char}
    {pieces : List (List Char)} (hc : c ≠ separator)
    (h : split separator rest = piece :: pieces) :
    split separator (c :: rest) = (c :: piece) :: pieces := by
  rw [split, if_neg hc, h]

theorem split_of_not_mem {separator : Char} {text : List Char} (h : separator ∉ text) :
    split separator text = [text] := by
  induction text with
  | nil => rfl
  | cons c rest ih =>
    rw [List.mem_cons, not_or] at h
    exact split_cons_of_ne (Ne.symm h.1) (ih h.2)

/-- **The first separator ends the first piece.** -/
theorem split_append {separator : Char} {before : List Char} (h : separator ∉ before)
    (after : List Char) :
    split separator (before ++ separator :: after) = before :: split separator after := by
  induction before with
  | nil => exact split_cons_self separator after
  | cons c rest ih =>
    rw [List.mem_cons, not_or] at h
    exact split_cons_of_ne (Ne.symm h.1) (ih h.2)

/-- **Splitting undoes joining.** -/
theorem split_intercalate {separator : Char} {pieces : List (List Char)} (hne : pieces ≠ [])
    (h : ∀ piece ∈ pieces, separator ∉ piece) :
    split separator ([separator].intercalate pieces) = pieces := by
  induction pieces with
  | nil => exact absurd rfl hne
  | cons piece rest ih =>
    have hpiece := h piece List.mem_cons_self
    cases rest with
    | nil => rw [List.intercalate_singleton, split_of_not_mem hpiece]
    | cons next rest =>
      have hrest := ih (List.cons_ne_nil next rest) fun p hp => h p (List.mem_cons_of_mem piece hp)
      rw [List.intercalate_cons_cons, List.append_assoc, List.singleton_append,
        split_append hpiece, hrest]

/-- **A text lists pieces**: it has the separator between each two of them, and nowhere
else. -/
def IsList (separator : Char) (pieces : List (List Char)) (text : List Char) : Prop :=
  pieces ≠ [] ∧ (∀ piece ∈ pieces, separator ∉ piece) ∧ text = [separator].intercalate pieces

/-- **Every text lists the pieces it is split into.** -/
theorem isList_split (separator : Char) (text : List Char) :
    IsList separator (split separator text) text := by
  refine ⟨split_ne_nil separator text, ?_⟩
  induction text with
  | nil => exact ⟨List.forall_mem_singleton.mpr List.not_mem_nil, rfl⟩
  | cons c rest ih =>
    obtain ⟨hplain, hrest⟩ := ih
    obtain ⟨piece, pieces, hsplit⟩ := exists_split_eq_cons separator rest
    rw [hsplit] at hplain hrest
    by_cases hc : c = separator
    · subst hc
      rw [split_cons_self, hsplit, List.intercalate_cons_cons, List.nil_append,
        List.singleton_append, ← hrest]
      exact ⟨List.forall_mem_cons.mpr ⟨List.not_mem_nil, hplain⟩, rfl⟩
    · obtain ⟨hpiece, hpieces⟩ := List.forall_mem_cons.mp hplain
      rw [split_cons_of_ne hc hsplit]
      refine ⟨List.forall_mem_cons.mpr
        ⟨List.not_mem_cons_of_ne_of_not_mem (Ne.symm hc) hpiece, hpieces⟩, ?_⟩
      rw [hrest]
      cases pieces with
      | nil => rw [List.intercalate_singleton, List.intercalate_singleton]
      | cons next more => rw [List.intercalate_cons_cons, List.intercalate_cons_cons]; rfl

theorem mem_of_mem_intercalate {c : Char} {separator : List Char} {pieces : List (List Char)}
    (h : c ∈ separator.intercalate pieces) : c ∈ separator ∨ ∃ piece ∈ pieces, c ∈ piece := by
  induction pieces with
  | nil => exact absurd h List.not_mem_nil
  | cons piece rest ih =>
    cases rest with
    | nil =>
      rw [List.intercalate_singleton] at h
      exact .inr ⟨piece, List.mem_cons_self, h⟩
    | cons next rest =>
      rw [List.intercalate_cons_cons, List.mem_append, List.mem_append] at h
      rcases h with (h | h) | h
      · exact .inr ⟨piece, List.mem_cons_self, h⟩
      · exact .inl h
      · exact (ih h).imp_right fun ⟨p, hp, hc⟩ => ⟨p, List.mem_cons_of_mem piece hp, hc⟩

theorem splitOnce_of_not_mem {separator : Char} {text : List Char} (h : separator ∉ text) :
    splitOnce separator text = none := by
  induction text with
  | nil => rfl
  | cons c rest ih =>
    rw [List.mem_cons, not_or] at h
    rw [splitOnce, if_neg (Ne.symm h.1), ih h.2]
    rfl

/-- **The first separator parts a text in two.** -/
theorem splitOnce_append {separator : Char} {before : List Char} (h : separator ∉ before)
    (after : List Char) :
    splitOnce separator (before ++ separator :: after) = some (before, after) := by
  induction before with
  | nil => exact if_pos rfl
  | cons c rest ih =>
    rw [List.mem_cons, not_or] at h
    rw [List.cons_append, splitOnce, if_neg (Ne.symm h.1), ih h.2]
    rfl

end Karnaugh.Text
