import Mathlib.Tactic.Tauto
import Karnaugh.Proofs.XmlPieces

/-!
# Strings in documents

A string that a document was made from is read up to the character that ends what it
stands in. That may come too early, if the string has it. So a string is read as itself
only if it is plain (`Xml.exists_of_read_string`): a reference in it is one character, and
blanks and line ends may be read as others.
-/

namespace Karnaugh.Xml

/-! ## Strings -/

/-- The marks are what ends a run or starts markup or a reference, and what is read as
another character. -/
theorem Kind.mem_marks_iff {kind : Kind} {c : Char} :
    c ∈ kind.marks ↔ c = '<' ∨ c = '&' ∨ c = kind.stop ∨ kind.normal c ≠ c := by
  cases kind with
  | content =>
    have hnormal : content.normal c ≠ c ↔ c = '\r' := by
      show (if c = '\r' then '\n' else c) ≠ c ↔ c = '\r'
      split
      next h => exact iff_of_true (h ▸ by decide) h
      next h => exact iff_of_false (fun hne => hne rfl) h
    rw [hnormal]
    simp only [marks, stop, List.mem_cons, List.not_mem_nil, or_false]
    exact ⟨fun h => by tauto, fun h => by tauto⟩
  | value mark =>
    have hnormal : (value mark).normal c ≠ c ↔ c = '\t' ∨ c = '\n' ∨ c = '\r' := by
      show (if isSpace c then ' ' else c) ≠ c ↔ _
      split
      next h =>
        have hspace := List.contains_iff_mem.mp h
        simp only [List.mem_cons, List.not_mem_nil, or_false] at hspace
        rcases hspace with rfl | rfl | rfl | rfl <;> decide
      next h =>
        refine iff_of_false (fun hne => hne rfl) ?_
        rintro (rfl | rfl | rfl) <;> exact h rfl
    rw [hnormal]
    simp only [marks, stop, List.mem_cons, List.not_mem_nil, or_false]

section

variable {parts : List Part} {spot : Spot} {root : Item} {outer : List Part}

/-- A reference is read to its semicolon, and is one character. -/
theorem exists_read_reference {chars before name text : List Char}
    (hread : State.read ⟨parts, .chars spot ⟨chars, before, some name⟩⟩ text
      = some ⟨outer, .epilog root⟩) :
    ∃ reference rest x, text = reference ++ ';' :: rest
      ∧ reference.all isReferenceChar = true
      ∧ State.read ⟨parts, .chars spot ⟨chars ++ [x], ';' :: before, none⟩⟩ rest
        = some ⟨outer, .epilog root⟩ := by
  induction text generalizing name with
  | nil => cases hread
  | cons c text ih =>
    obtain ⟨next, hstep, hread⟩ := State.read_cons_eq_some_iff.mp hread
    have hrun : ∃ run, Run.read spot.kind ⟨chars, before, some name⟩ c = some run
        ∧ next = ⟨parts, .chars spot run⟩ := by
      simp only [step, reduceCtorEq, and_false, if_false] at hstep
      obtain ⟨run, hrun, rfl⟩ := Option.map_eq_some_iff.mp hstep
      exact ⟨run, hrun, rfl⟩
    obtain ⟨run, hrun, rfl⟩ := hrun
    simp only [Run.read] at hrun
    split at hrun
    next hc =>
      obtain ⟨x, -, rfl⟩ := Option.map_eq_some_iff.mp hrun
      exact ⟨[], text, x, hc ▸ rfl, rfl, hc ▸ hread⟩
    next =>
      split at hrun
      next hc =>
        cases hrun
        obtain ⟨reference, rest, x, rfl, hall, hread⟩ := ih hread
        exact ⟨c :: reference, rest, x, rfl, Bool.and_eq_true_iff.mpr ⟨hc, hall⟩, hread⟩
      next => cases hrun

/-- **What one more character does** to a run, outside references. -/
theorem Run.read_cases {kind : Kind} {run next : Run} {c : Char}
    (hreference : run.reference = none) (h : run.read kind c = some next) :
    c = '&' ∧ next = { run with reference := some [] }
      ∨ c ≠ '&' ∧ kind.admits run.before c = true
        ∧ (next = ⟨run.chars, c :: run.before, none⟩
          ∨ next = ⟨run.chars ++ [kind.normal c], c :: run.before, none⟩) := by
  obtain ⟨chars, before, reference⟩ := run
  cases hreference
  simp only [Run.read] at h
  split at h
  next hc =>
    cases h
    exact .inl ⟨hc, rfl⟩
  next hc =>
    refine .inr ⟨hc, ?_⟩
    cases hadmits : kind.admits before c with
    | false =>
      rw [hadmits] at h
      cases h
    | true =>
      rw [hadmits] at h
      simp only [Bool.not_true, Bool.false_eq_true, if_false] at h
      split at h
      · cases h
        exact ⟨rfl, .inl rfl⟩
      · cases h
        exact ⟨rfl, .inr rfl⟩

/-- What is read in an element does not come to have `]]>`. -/
theorem not_infix_of_admits {before : List Char} {c : Char}
    (hbefore : ¬[']', ']', '>'] <:+: before.reverse)
    (hc : Kind.content.admits before c = true ∨ c ≠ '>') :
    ¬[']', ']', '>'] <:+: (c :: before).reverse := by
  rw [List.reverse_cons, List.infix_concat_iff, not_or]
  refine ⟨fun hsuffix => ?_, hbefore⟩
  -- it would end with the character
  have hprefix := List.reverse_prefix.mpr hsuffix
  rw [List.reverse_append, List.reverse_reverse] at hprefix
  obtain ⟨hc', hbrackets⟩ := List.cons_prefix_cons.mp hprefix
  obtain ⟨older, rfl⟩ := hbrackets
  rcases hc with hc | hc
  · cases hc'
    simp [Kind.admits] at hc
  · exact hc hc'.symm

theorem Kind.of_admits {kind : Kind} {before : List Char} {c : Char}
    (h : kind.admits before c = true) : isLegal c = true ∧ c ≠ '<' := by
  cases kind with
  | content =>
    obtain ⟨h, -⟩ := Bool.and_eq_true_iff.mp h
    exact (Bool.and_eq_true_iff.mp h).imp_right bne_iff_ne.mp
  | value mark => exact (Bool.and_eq_true_iff.mp h).imp_right bne_iff_ne.mp

/-- **A text stops** where the run of characters does that it is read in. What is taken of it
until then makes as many characters at most, and the same ones only if it is plain. -/
def Stops (parts : List Part) (spot : Spot) (run : Run) (text : List Char) (final : State) :
    Prop :=
  ∃ taken rest chars before, text = taken ++ spot.kind.stop :: rest ∧ spot.kind.stop ∉ taken
    ∧ State.read ⟨parts, .chars spot ⟨run.chars ++ chars, before, none⟩⟩
      (spot.kind.stop :: rest) = some final
    ∧ chars.length ≤ taken.length
    ∧ (chars = taken → (∀ c ∈ taken, isLegal c = true ∧ c ∉ spot.kind.marks)
      ∧ (spot.kind = .content → ¬[']', ']', '>'] <:+: run.before.reverse ++ taken))

namespace Stops

variable {chars before text : List Char} {final : State}

/-- It may have ended already. -/
theorem nil (hbefore : spot.kind = .content → ¬[']', ']', '>'] <:+: before.reverse)
    (hread : State.read ⟨parts, .chars spot ⟨chars, before, none⟩⟩ (spot.kind.stop :: text)
      = some final) : Stops parts spot ⟨chars, before, none⟩ (spot.kind.stop :: text) final := by
  refine ⟨[], text, [], before, rfl, List.not_mem_nil, ?_, Nat.le_refl 0,
    fun _ => ⟨nofun, fun hkind => ?_⟩⟩
  · rwa [List.append_nil]
  · rw [List.append_nil]
    exact hbefore hkind

/-- A reference is longer than its character. -/
theorem reference (hstop : spot.kind.stop = '<' ∨ spot.kind.stop = '"') {x : Char}
    {name : List Char} (hname : name.all isReferenceChar = true)
    (h : Stops parts spot ⟨chars ++ [x], ';' :: before, none⟩ text final) :
    Stops parts spot ⟨chars, before, none⟩ ('&' :: name ++ ';' :: text) final := by
  obtain ⟨taken, rest, more, before', rfl, hnot, hread, hlength, -⟩ := h
  have hname' : spot.kind.stop ∉ name := by
    intro hmem
    have hchar := List.all_eq_true.mp hname _ hmem
    rcases hstop with h | h <;> rw [h] at hchar <;> exact absurd hchar (by decide)
  have hends : spot.kind.stop ≠ '&' ∧ spot.kind.stop ≠ ';' := by
    rcases hstop with h | h <;> rw [h] <;> decide
  refine ⟨'&' :: name ++ ';' :: taken, rest, x :: more, before', by simp, ?_, ?_, ?_, ?_⟩
  · simp [hname', hends, hnot]
  · rwa [List.append_cons]
  · simp only [List.length_cons, List.length_append]
    omega
  · intro heq
    have hlengths := congrArg List.length heq
    simp only [List.length_cons, List.length_append] at hlengths
    omega

/-- So is the end of a line that has been read already. -/
theorem skip {c : Char} (hc : c ≠ spot.kind.stop)
    (h : Stops parts spot ⟨chars, c :: before, none⟩ text final) :
    Stops parts spot ⟨chars, before, none⟩ (c :: text) final := by
  obtain ⟨taken, rest, more, before', rfl, hnot, hread, hlength, -⟩ := h
  refine ⟨c :: taken, rest, more, before', rfl,
    List.not_mem_cons_of_ne_of_not_mem (Ne.symm hc) hnot, hread, Nat.le_succ_of_le hlength,
    fun heq => ?_⟩
  have hlengths := congrArg List.length heq
  simp only [List.length_cons] at hlengths
  omega

/-- Any other character is read as one, which is the same only if it is plain. -/
theorem cons {c : Char} (hc : c ≠ spot.kind.stop) (hand : c ≠ '&')
    (hadmits : spot.kind.admits before c = true)
    (h : Stops parts spot ⟨chars ++ [spot.kind.normal c], c :: before, none⟩ text final) :
    Stops parts spot ⟨chars, before, none⟩ (c :: text) final := by
  obtain ⟨taken, rest, more, before', rfl, hnot, hread, hlength, hplain⟩ := h
  refine ⟨c :: taken, rest, spot.kind.normal c :: more, before', rfl,
    List.not_mem_cons_of_ne_of_not_mem (Ne.symm hc) hnot, ?_, Nat.succ_le_succ hlength,
    fun heq => ?_⟩
  · rwa [List.append_cons]
  · obtain ⟨hnormal, heq⟩ := List.cons.inj heq
    obtain ⟨hall, hends⟩ := hplain heq
    obtain ⟨hlegal, hopen⟩ := Kind.of_admits hadmits
    refine ⟨List.forall_mem_cons.mpr ⟨⟨hlegal, ?_⟩, hall⟩, fun hkind => ?_⟩
    · rw [Kind.mem_marks_iff]
      rintro (h | h | h | h)
      · exact hopen h
      · exact hand h
      · exact hc h
      · exact h hnormal
    · have hin := hends hkind
      rwa [List.reverse_cons, List.append_assoc] at hin

end Stops

/-- **Every string stops**, where a document is read to its end. -/
theorem stops_of_read (hstop : spot.kind.stop = '<' ∨ spot.kind.stop = '"') {run : Run}
    {text : List Char} (hreference : run.reference = none)
    (hbefore : spot.kind = .content → ¬[']', ']', '>'] <:+: run.before.reverse)
    (hread : State.read ⟨parts, .chars spot run⟩ text = some ⟨outer, .epilog root⟩) :
    Stops parts spot run text ⟨outer, .epilog root⟩ := by
  induction hn : text.length using Nat.strongRecOn generalizing text run with
  | _ n ih =>
    obtain ⟨chars, before, reference⟩ := run
    cases hreference
    cases text with
    | nil => cases hread
    | cons c text =>
      by_cases hc : c = spot.kind.stop
      · exact hc ▸ .nil hbefore (hc ▸ hread)
      obtain ⟨next, hstep, hread⟩ := State.read_cons_eq_some_iff.mp hread
      obtain ⟨run, hrun, rfl⟩ : ∃ run, Run.read spot.kind ⟨chars, before, none⟩ c = some run
          ∧ ⟨parts, .chars spot run⟩ = next := by
        simp only [step, hc, false_and, if_false] at hstep
        exact Option.map_eq_some_iff.mp hstep
      have hlt : text.length < n := by
        rw [← hn, List.length_cons]
        exact Nat.lt_succ_self _
      rcases Run.read_cases rfl hrun with ⟨rfl, rfl⟩ | ⟨hand, hadmits, hrun⟩
      · obtain ⟨name, rest, x, rfl, hname, hread⟩ := exists_read_reference hread
        rw [List.length_append, List.length_cons] at hlt
        exact .reference hstop hname (ih _ (by omega) rfl
          (fun hkind => not_infix_of_admits (hbefore hkind) (.inr (by decide))) hread rfl)
      · have hends : spot.kind = .content → ¬[']', ']', '>'] <:+: (c :: before).reverse :=
          fun hkind => not_infix_of_admits (hbefore hkind) (.inl (hkind ▸ hadmits))
        rcases hrun with rfl | rfl
        · exact .skip hc (ih _ hlt rfl hends hread rfl)
        · exact .cons hc hand hadmits (ih _ hlt rfl hends hread rfl)

/-- **A string that a document was made from** is read as itself only if it is plain, and
then the run ends with it. Otherwise the run may end before, with the rest of the string to be
read as something else. -/
theorem exists_of_read_string (hstop : spot.kind.stop = '<' ∨ spot.kind.stop = '"')
    {string rest : List Char}
    (hread : State.read ⟨parts, .chars spot .start⟩ (string ++ spot.kind.stop :: rest)
      = some ⟨outer, .epilog root⟩) :
    ∃ chars before after, (chars = string → spot.kind.Plain string)
      ∧ State.read ⟨parts, .chars spot ⟨chars, before, none⟩⟩ (spot.kind.stop :: after)
        = some ⟨outer, .epilog root⟩
      ∧ (after = rest ∨ ∃ start more, string = start ++ spot.kind.stop :: more
        ∧ after = more ++ spot.kind.stop :: rest ∧ chars.length ≤ start.length) := by
  obtain ⟨taken, after, chars, before, htext, hnot, hafter, hlength, hplain⟩ :=
    stops_of_read hstop rfl (fun _ => by decide) hread
  refine ⟨chars, before, after, ?_⟩
  have hwhole : ∀ {s : List Char}, taken = s → chars = s → spot.kind.Plain s := by
    rintro s rfl heq
    exact hplain heq
  rcases List.append_eq_append_iff.mp htext with ⟨more, rfl, hmore⟩ | ⟨more, rfl, hmore⟩
  · -- the string ends where it is said to
    cases more with
    | nil =>
      rw [List.append_nil] at hwhole
      exact ⟨hwhole rfl, hafter, .inl (List.cons.inj hmore).2.symm⟩
    | cons c more =>
      rw [← (List.cons.inj hmore).1] at hnot
      exact absurd (List.mem_append_right _ List.mem_cons_self) hnot
  · cases more with
    | nil =>
      rw [List.append_nil]
      exact ⟨hwhole rfl, hafter, .inl (List.cons.inj hmore).2⟩
    | cons c more =>
      obtain ⟨rfl, rfl⟩ := List.cons.inj hmore
      refine ⟨fun heq => ?_, hafter, .inr ⟨taken, more, rfl, rfl, hlength⟩⟩
      rw [heq, List.length_append, List.length_cons] at hlength
      omega

end

end Karnaugh.Xml
