import Karnaugh.Grid.Text
import Karnaugh.Proofs.Grids
import Karnaugh.Proofs.Sheets

/-!
# Grids read from a text

A grid file is read in stages: its lines are trimmed, comments dropped, blanks removed,
symbols read, and the rows put together. This module says what comes out of all the
stages. The lines that count are those with a character that is not blank, unless the
first such is a number sign (`Grid.rowLines`), and a text is a grid exactly if they have,
apart from blanks, the symbols of its rows (`Grid.ofText_eq_ok_iff`).

From there it is a matter of lines what may be done to the text of a grid. A line that
does not count may be added anywhere, as `Grid.rowLines_append` passes over it. Blanks
within a line do not matter either, and that takes in a carriage return at its end. So
whatever is written from the text of a grid in these ways (`Grid.Decorated`) is read as
that grid (`Grid.ofText_of_decorated`).
-/

namespace Karnaugh

open Text

/-! ## Steps and lists -/

theorem bind_eq_ok_iff {ε α β : Type} {x : Except ε α} {f : α → Except ε β} {b : β} :
    (x >>= f) = .ok b ↔ ∃ a, x = .ok a ∧ f a = .ok b := by
  cases x with
  | error e => exact ⟨nofun, nofun⟩
  | ok a => exact ⟨fun h => ⟨a, rfl, h⟩, fun ⟨_, ha, h⟩ => Except.ok.inj ha ▸ h⟩

theorem mapError_eq_ok_iff {ε ε' α : Type} {x : Except ε α} {f : ε → ε'} {a : α} :
    x.mapError f = .ok a ↔ x = .ok a := by
  cases x <;> simp [Except.mapError]

theorem exists_of_forall₂ {α β : Type} {R : α → β → Prop} {xs : List α} {ys : List β} {x : α}
    (h : List.Forall₂ R xs ys) (hx : x ∈ xs) : ∃ y ∈ ys, R x y := by
  obtain ⟨i, rfl⟩ := List.mem_iff_get.mp hx
  exact ⟨ys.get ⟨i, h.length_eq ▸ i.2⟩, List.get_mem _ _, h.get _ _⟩

theorem exists_forall₂ {α β : Type} {R : α → β → Prop} {xs : List α}
    (h : ∀ x ∈ xs, ∃ y, R x y) : ∃ ys, List.Forall₂ R xs ys := by
  induction xs with
  | nil => exact ⟨[], .nil⟩
  | cons x rest ih =>
    obtain ⟨⟨y, hy⟩, hrest⟩ := List.forall_mem_cons.mp h
    obtain ⟨ys, hys⟩ := ih hrest
    exact ⟨y :: ys, .cons hy hys⟩

/-! ## The symbols of a state -/

namespace CellState

/-- **The symbols of a state.** -/
def symbols : CellState → List Char
  | off => ['0']
  | on => ['1']
  | dontCare => ['X', 'x', '-']

theorem ofSymbol?_eq_some_iff {c : Char} {s : CellState} :
    ofSymbol? c = some s ↔ c ∈ s.symbols := by
  constructor
  · intro h
    unfold ofSymbol? at h
    split at h <;> cases h <;> decide
  · intro h
    cases s <;> simp only [symbols, List.mem_cons, List.not_mem_nil, or_false] at h
    · exact h ▸ rfl
    · exact h ▸ rfl
    · rcases h with rfl | rfl | rfl <;> rfl

theorem exists_mem_symbols_iff {c : Char} :
    (∃ s : CellState, c ∈ s.symbols) ↔ c ∈ ['0', '1', 'X', 'x', '-'] := by
  constructor
  · rintro ⟨s, h⟩
    cases s <;> simp_all [symbols]
  · intro h
    simp only [List.mem_cons, List.not_mem_nil, or_false] at h
    rcases h with rfl | rfl | h
    · exact ⟨off, List.mem_singleton.mpr rfl⟩
    · exact ⟨on, List.mem_singleton.mpr rfl⟩
    · exact ⟨dontCare, by simpa [symbols] using h⟩

theorem symbol_mem_symbols (s : CellState) : s.symbol ∈ s.symbols := by
  cases s <;> exact List.mem_cons_self

/-- A symbol is not blank, and starts no comment. -/
theorem of_mem_symbols {c : Char} {s : CellState} (h : c ∈ s.symbols) :
    isBlank c = false ∧ c ≠ '#' ∧ c ≠ '\n' := by
  have hc := exists_mem_symbols_iff.mp ⟨s, h⟩
  simp only [List.mem_cons, List.not_mem_nil, or_false] at hc
  rcases hc with rfl | rfl | rfl | rfl | rfl <;> decide

end CellState

namespace Grid

/-! ## The lines that count -/

/-- **Whether a line counts**: something in it is not blank, and the first such character
is no number sign. -/
def counts (line : List Char) : Bool :=
  (line.find? fun c => !isBlank c).any (· != '#')

/-- **The lines of a text that count.** -/
def rowLines (text : List Char) : List (List Char) :=
  (split '\n' text).filter counts

theorem counts_eq_any_head? (line : List Char) :
    counts line = (compact line).head?.any (· != '#') := by
  rw [counts, compact, List.head?_filter]

/-- **A line counts for nothing** if it is blank, or blank up to a number sign. -/
theorem counts_eq_false_iff {line : List Char} :
    counts line = false
      ↔ (∀ c ∈ line, isBlank c = true)
        ∨ ∃ before after, (∀ c ∈ before, isBlank c = true) ∧ line = before ++ '#' :: after := by
  have hmark : isBlank '#' = false := by decide
  unfold counts
  cases hfind : line.find? fun c => !isBlank c with
  | none =>
    have hblank : ∀ c ∈ line, isBlank c = true := by simpa using hfind
    exact ⟨fun _ => .inl hblank, fun _ => rfl⟩
  | some c =>
    obtain ⟨hc, before, after, rfl, hbefore⟩ := List.find?_eq_some_iff_append.mp hfind
    simp only [Bool.not_not] at hbefore
    rw [Option.any_some, bne_eq_false_iff_eq]
    refine ⟨fun heq => .inr ⟨before, after, hbefore, heq ▸ rfl⟩, ?_⟩
    rintro (hall | ⟨before', after', hbefore', heq⟩)
    · rw [hall c (by simp)] at hc
      cases hc
    · -- the first character that is not blank is found in both ways
      have hfind' : (before' ++ '#' :: after').find? (fun c => !isBlank c) = some '#' :=
        List.find?_eq_some_iff_append.mpr
          ⟨by rw [hmark]; rfl, before', after', rfl, by simpa using hbefore'⟩
      rw [← heq, hfind] at hfind'
      exact Option.some.inj hfind'

/-- **A line and what follows it**: everything about the lines of a text comes from
this. -/
theorem rowLines_append {line : List Char} (h : '\n' ∉ line) (rest : List Char) :
    rowLines (line ++ '\n' :: rest)
      = if counts line = true then line :: rowLines rest else rowLines rest := by
  rw [rowLines, split_append h, List.filter_cons]
  rfl

theorem trimEnd_cons_of_not_isBlank {c : Char} (h : ¬isBlank c = true) (rest : List Char) :
    trimEnd (c :: rest) = c :: trimEnd rest := by
  unfold trimEnd
  rw [List.reverse_cons, List.dropWhile_append, List.dropWhile_cons_of_neg h]
  split
  · next hnil => rw [List.isEmpty_iff.mp hnil]; rfl
  · rw [List.reverse_append]; rfl

/-- Trimming and looking at the first character decides whether a line counts. -/
theorem isRow_trim (line : List Char) : isRow (trim line) = counts line := by
  rw [counts]
  cases hfind : line.find? fun c => !isBlank c with
  | none =>
    have hblank : ∀ c ∈ line, isBlank c = true := by simpa using hfind
    rw [trim_eq_nil_iff.mpr hblank]
    rfl
  | some c =>
    obtain ⟨hc, before, after, rfl, hbefore⟩ := List.find?_eq_some_iff_append.mp hfind
    have hc : ¬isBlank c = true := by simpa using hc
    rw [trim, trimStart, List.dropWhile_append_of_pos (by simpa using hbefore),
      List.dropWhile_cons_of_neg hc, trimEnd_cons_of_not_isBlank hc]
    rfl

/-- **The rows of a text** are the lines that count, without their blanks. -/
theorem textRows_eq (text : List Char) : textRows text = (rowLines text).map compact := by
  unfold textRows rowLines
  rw [List.filter_map, List.map_map, show isRow ∘ trim = counts from funext isRow_trim,
    show compact ∘ trim = compact from funext compact_trim]

/-! ## Symbols and rows -/

/-- **Symbols are written for states**, one for each. -/
def Shows (symbols : List Char) (states : List CellState) : Prop :=
  List.Forall₂ (fun c s => c ∈ CellState.symbols s) symbols states

theorem readSymbols_eq_ok_iff {row col : Nat} {symbols : List Char} {states : List CellState} :
    readSymbols row col symbols = .ok states ↔ Shows symbols states := by
  unfold Shows
  induction symbols generalizing col states with
  | nil => simp [readSymbols, eq_comm]
  | cons c rest ih =>
    rw [readSymbols, List.forall₂_cons_left_iff]
    cases hc : CellState.ofSymbol? c with
    | none =>
      refine ⟨nofun, ?_⟩
      rintro ⟨s, states', hs, -⟩
      rw [← CellState.ofSymbol?_eq_some_iff, hc] at hs
      cases hs
    | some s =>
      have hstate : ∀ s', c ∈ CellState.symbols s' ↔ s = s' := fun s' => by
        rw [← CellState.ofSymbol?_eq_some_iff, hc, Option.some.injEq]
      dsimp only
      rw [bind_eq_ok_iff]
      constructor
      · rintro ⟨states', hrest, ⟨⟩⟩
        exact ⟨s, states', (hstate s).mpr rfl, ih.mp hrest, rfl⟩
      · rintro ⟨s', states', hs', hrest, rfl⟩
        obtain rfl := (hstate s').mp hs'
        exact ⟨states', ih.mpr hrest, rfl⟩

theorem readRows_eq_ok_iff {cols row : Nat} {rows : List (List Char)}
    {states : List (List CellState)} :
    readRows cols row rows = .ok states
      ↔ (∀ symbols ∈ rows, symbols.length = cols) ∧ List.Forall₂ Shows rows states := by
  induction rows generalizing row states with
  | nil => simp [readRows, eq_comm]
  | cons symbols rest ih =>
    rw [readRows, List.forall₂_cons_left_iff, List.forall_mem_cons]
    by_cases hlength : symbols.length = cols
    · rw [if_neg (not_not.mpr hlength), bind_eq_ok_iff]
      simp only [bind_eq_ok_iff, readSymbols_eq_ok_iff, ih]
      constructor
      · rintro ⟨first, hfirst, states', ⟨hrest, hstates'⟩, ⟨⟩⟩
        exact ⟨⟨hlength, hrest⟩, first, states', hfirst, hstates', rfl⟩
      · rintro ⟨⟨-, hrest⟩, first, states', hfirst, hstates', rfl⟩
        exact ⟨first, hfirst, states', ⟨hrest, hstates'⟩, rfl⟩
    · rw [if_pos hlength]
      exact ⟨nofun, fun h => absurd h.1.1 hlength⟩

theorem length_rows (g : Grid) : g.rows.length = g.layout.rows := by
  rw [rows, List.length_map, List.length_range]

theorem length_of_mem_rows {g : Grid} {row : List CellState} (h : row ∈ g.rows) :
    row.length = g.layout.cols := by
  obtain ⟨r, -, rfl⟩ := List.mem_map.mp h
  rw [List.length_map, List.length_range]

/-- Rows of the right size are those of a grid. -/
theorem exists_rows_eq {layout : Layout} {states : List (List CellState)}
    (hrows : states.length = layout.rows) (hcols : ∀ row ∈ states, row.length = layout.cols) :
    ∃ g : Grid, g.layout = layout ∧ g.rows = states := by
  have hcells : states.flatten.length = layout.cellCount := by
    rw [length_flatten_of_forall hcols, hrows, Layout.cellCount]
  refine ⟨⟨layout, states.flatten, hcells⟩, rfl, List.eq_iff_flatten_eq.mpr ⟨flatten_rows _, ?_⟩⟩
  -- rows of one length are told by what they put together
  rw [List.map_eq_replicate_iff.mpr hcols,
    List.map_eq_replicate_iff.mpr fun row => length_of_mem_rows, length_rows, hrows]

theorem find?_length_eq_none_iff {cols : Nat} {states : List (List CellState)} :
    (states.find? fun row => row.length != cols) = none ↔ ∀ row ∈ states, row.length = cols := by
  simp

/-- The rows of a grid make that grid. -/
theorem ofRows_rows (g : Grid) : ofRows g.layout g.rows = .ok g := by
  have hnone := find?_length_eq_none_iff.mpr fun row (h : row ∈ g.rows) => length_of_mem_rows h
  unfold ofRows
  rw [dif_pos (length_rows g)]
  split
  · next row hsome =>
    rw [hnone] at hsome
    cases hsome
  · simp only [flatten_rows]

theorem ofRows_eq_ok_iff {layout : Layout} {states : List (List CellState)} {g : Grid} :
    ofRows layout states = .ok g ↔ g.layout = layout ∧ g.rows = states := by
  constructor
  · intro h
    by_cases hsize : states.length = layout.rows ∧ ∀ row ∈ states, row.length = layout.cols
    · obtain ⟨g', rfl, rfl⟩ := exists_rows_eq hsize.1 hsize.2
      obtain rfl := Except.ok.inj ((ofRows_rows g').symm.trans h)
      exact ⟨rfl, rfl⟩
    · unfold ofRows at h
      split at h
      · next hrows =>
        split at h
        · cases h
        · next hnone => exact absurd ⟨hrows, find?_length_eq_none_iff.mp hnone⟩ hsize
      · cases h
  · rintro ⟨rfl, rfl⟩
    exact ofRows_rows g

/-! ## What is read -/

/-- **The texts that are read as a grid** are those whose lines that count show, apart
from blanks, the rows of the grid. -/
theorem ofText_eq_ok_iff {layout : Layout} {text : List Char} {g : Grid} :
    ofText layout.numVars text = .ok g
      ↔ g.layout = layout ∧ List.Forall₂ Shows ((rowLines text).map compact) g.rows := by
  unfold ofText
  simp only [bind_eq_ok_iff, mapError_eq_ok_iff, Layout.ofNumVars_eq_ok rfl, textRows_eq,
    Except.ok.injEq, exists_eq_left']
  by_cases hcount : ((rowLines text).map compact).length = layout.rows
  · rw [if_neg (not_not.mpr hcount)]
    simp only [bind_eq_ok_iff, mapError_eq_ok_iff, readRows_eq_ok_iff, ofRows_eq_ok_iff]
    constructor
    · rintro ⟨states, ⟨-, hshows⟩, hlayout, rfl⟩
      exact ⟨hlayout, hshows⟩
    · rintro ⟨rfl, hshows⟩
      refine ⟨g.rows, ⟨fun symbols hsymbols => ?_, hshows⟩, rfl, rfl⟩
      obtain ⟨row, hrow, hshow⟩ := exists_of_forall₂ hshows hsymbols
      exact hshow.length_eq.trans (length_of_mem_rows hrow)
  · rw [if_pos hcount]
    refine ⟨nofun, ?_⟩
    rintro ⟨rfl, h⟩
    exact absurd (h.length_eq.trans (length_rows g)) hcount

/-- **The texts that are read** have as many lines that count as the map has rows, and in
each of them as many symbols as it has columns. -/
theorem exists_ofText_eq_ok_iff {layout : Layout} {text : List Char} :
    (∃ g, ofText layout.numVars text = .ok g)
      ↔ (rowLines text).length = layout.rows
        ∧ ∀ line ∈ rowLines text, (compact line).length = layout.cols
          ∧ ∀ c ∈ compact line, c ∈ ['0', '1', 'X', 'x', '-'] := by
  simp only [ofText_eq_ok_iff]
  constructor
  · rintro ⟨g, rfl, hshows⟩
    refine ⟨?_, fun line hline => ?_⟩
    · rw [← length_rows, ← hshows.length_eq, List.length_map]
    · obtain ⟨row, hrow, hshow⟩ := exists_of_forall₂ hshows (List.mem_map_of_mem hline)
      refine ⟨hshow.length_eq.trans (length_of_mem_rows hrow), fun c hc => ?_⟩
      obtain ⟨s, -, hs⟩ := exists_of_forall₂ hshow hc
      exact CellState.exists_mem_symbols_iff.mp ⟨s, hs⟩
  · rintro ⟨hcount, hlines⟩
    have hshow : ∀ symbols ∈ (rowLines text).map compact, ∃ states, Shows symbols states := by
      intro symbols hsymbols
      obtain ⟨line, hline, rfl⟩ := List.mem_map.mp hsymbols
      exact exists_forall₂ fun c hc =>
        CellState.exists_mem_symbols_iff.mpr ((hlines line hline).2 c hc)
    obtain ⟨states, hshows⟩ := exists_forall₂ hshow
    have hcols : ∀ row ∈ states, row.length = layout.cols := by
      intro row hrow
      obtain ⟨symbols, hsymbols, hshow⟩ := exists_of_forall₂ hshows.flip hrow
      obtain ⟨line, hline, rfl⟩ := List.mem_map.mp hsymbols
      rw [← hshow.length_eq, (hlines line hline).1]
    obtain ⟨g, hlayout, rfl⟩ := exists_rows_eq
      (by rw [← hshows.length_eq, List.length_map, hcount]) hcols
    exact ⟨g, hlayout, hshows⟩

/-! ## What may be done to the text of a grid -/

/-- **A line is spread out**: blanks that end no line are put in anywhere, a carriage
return at the end among them, and the symbol of a don't-care is written in another
way. -/
inductive Spread : List Char → List Char → Prop where
  /-- Nothing is left to be written. -/
  | nil : Spread [] []
  /-- A blank is put in. -/
  | blank {c : Char} (hc : isBlank c = true) (hne : c ≠ '\n') {row line : List Char}
      (rest : Spread row line) : Spread row (c :: line)
  /-- A character stays as it is. -/
  | kept {c : Char} (hne : c ≠ '\n') {row line : List Char} (rest : Spread row line) :
      Spread (c :: row) (c :: line)
  /-- A don't-care is written in another way. -/
  | respelled {c : Char} (hc : c = 'x' ∨ c = '-') {row line : List Char}
      (rest : Spread row line) : Spread ('X' :: row) (c :: line)

/-- **An idle line**: a blank one or a comment. -/
def Idle (line : List Char) : Prop :=
  '\n' ∉ line ∧ ((∀ c ∈ line, isBlank c = true)
    ∨ ∃ before after, (∀ c ∈ before, isBlank c = true) ∧ line = before ++ '#' :: after)

/-- **A text is decorated**: its lines are spread out, and idle lines are put in before,
between and after them. -/
inductive Decorated : List Char → List Char → Prop where
  /-- Nothing follows, except what may stand on a last line. -/
  | last {line : List Char} (h : Idle line) : Decorated [] line
  /-- An idle line is put in. -/
  | idle {line : List Char} (h : Idle line) {plain text : List Char}
      (rest : Decorated plain text) : Decorated plain (line ++ '\n' :: text)
  /-- A line is spread out. -/
  | row {row line : List Char} (h : Spread row line) {plain text : List Char}
      (rest : Decorated plain text) : Decorated (row ++ '\n' :: plain) (line ++ '\n' :: text)

theorem Idle.counts {line : List Char} (h : Idle line) : counts line = false :=
  counts_eq_false_iff.mpr h.2

namespace Spread

variable {row line : List Char}

theorem not_mem (h : Spread row line) : '\n' ∉ row ∧ '\n' ∉ line := by
  induction h with
  | nil => exact ⟨List.not_mem_nil, List.not_mem_nil⟩
  | blank hc hne rest ih => exact ⟨ih.1, List.not_mem_cons_of_ne_of_not_mem hne.symm ih.2⟩
  | kept hne rest ih =>
    exact ⟨List.not_mem_cons_of_ne_of_not_mem hne.symm ih.1,
      List.not_mem_cons_of_ne_of_not_mem hne.symm ih.2⟩
  | respelled hc rest ih =>
    refine ⟨List.not_mem_cons_of_ne_of_not_mem (by decide) ih.1,
      List.not_mem_cons_of_ne_of_not_mem ?_ ih.2⟩
    rcases hc with rfl | rfl <;> decide

/-- **A line that is spread out** shows, apart from blanks, what it showed before. -/
theorem shows (h : Spread row line) {states : List CellState} (hrow : Shows row states) :
    Shows (compact line) states := by
  induction h generalizing states with
  | nil => exact hrow
  | blank hc hne rest ih =>
    rw [compact_cons_of_isBlank hc]
    exact ih hrow
  | kept hne rest ih =>
    obtain ⟨s, states', hs, hrest, rfl⟩ := List.forall₂_cons_left_iff.mp hrow
    rw [compact_cons_of_not_isBlank (CellState.of_mem_symbols hs).1]
    exact .cons hs (ih hrest)
  | respelled hc rest ih =>
    obtain ⟨s, states', hs, hrest, rfl⟩ := List.forall₂_cons_left_iff.mp hrow
    have hs' : CellState.ofSymbol? 'X' = some s := CellState.ofSymbol?_eq_some_iff.mpr hs
    obtain rfl := Option.some.inj hs'
    rcases hc with rfl | rfl
    · exact .cons (by decide) (ih hrest)
    · exact .cons (by decide) (ih hrest)

end Spread

/-- A line that shows a state counts. -/
theorem Shows.counts {line : List Char} {s : CellState} {states : List CellState}
    (h : Shows (compact line) (s :: states)) : counts line = true := by
  obtain ⟨c, rest, hc, -, hcompact⟩ := List.forall₂_cons_right_iff.mp h
  rw [counts_eq_any_head?, hcompact]
  exact bne_iff_ne.mpr (CellState.of_mem_symbols hc).2.1

/-- The text that shows rows line by line. -/
def printed (rows : List (List CellState)) : List Char :=
  rows.flatMap fun row => row.map CellState.symbol ++ ['\n']

theorem printed_cons (row : List CellState) (rows : List (List CellState)) :
    printed (row :: rows) = row.map CellState.symbol ++ '\n' :: printed rows := by
  simp [printed]

theorem shows_symbols (row : List CellState) : Shows (row.map CellState.symbol) row :=
  List.forall₂_map_left_iff.mpr (List.forall₂_same.mpr fun s _ => s.symbol_mem_symbols)

/-- **Decorating a text** leaves the lines that count, and what they show. -/
theorem Decorated.shows {rows : List (List CellState)} {text : List Char}
    (h : Decorated (printed rows) text) (hrows : ∀ row ∈ rows, row ≠ []) :
    List.Forall₂ Shows ((rowLines text).map compact) rows := by
  generalize hprinted : printed rows = plain at h
  induction h generalizing rows with
  | @last line h =>
    -- a row would have a line feed after it
    have hnil : rows = [] := by
      cases rows with
      | nil => rfl
      | cons row rest => simp [printed] at hprinted
    rw [hnil, rowLines, split_of_not_mem h.1, List.filter_cons_of_neg (by simp [h.counts])]
    exact .nil
  | idle h rest ih =>
    rw [rowLines_append h.1, if_neg (by simp [h.counts])]
    exact ih hrows hprinted
  | @row row line h plain text rest ih =>
    cases rows with
    | nil => simp [printed] at hprinted
    | cons states more =>
      have hplain : '\n' ∉ states.map CellState.symbol := by
        intro hmem
        obtain ⟨s, -, hs⟩ := List.mem_map.mp hmem
        exact (CellState.of_mem_symbols s.symbol_mem_symbols).2.2 hs
      -- the first line feed ends the first row in both
      have hsplit := congrArg (splitOnce '\n') hprinted
      rw [printed_cons, splitOnce_append hplain, splitOnce_append h.not_mem.1] at hsplit
      obtain ⟨rfl, rfl⟩ := Prod.mk.inj (Option.some.inj hsplit)
      obtain ⟨hne, hmore⟩ := List.forall_mem_cons.mp hrows
      have hshows := h.shows (shows_symbols states)
      obtain ⟨s, rest', rfl⟩ := List.exists_cons_of_ne_nil hne
      rw [rowLines_append h.not_mem.2, if_pos hshows.counts, List.map_cons]
      exact .cons hshows (ih hmore rfl)

theorem toChars_eq (g : Grid) : g.toChars = printed g.rows := rfl

theorem ne_nil_of_mem_rows {g : Grid} : ∀ row ∈ g.rows, row ≠ [] := by
  rintro row hrow rfl
  exact g.layout.cols_pos.ne (length_of_mem_rows hrow)

/-- **Whatever is written from the text of a grid** is read as that grid. -/
theorem ofText_of_decorated {g : Grid} {text : List Char} (h : Decorated g.toChars text) :
    ofText g.layout.numVars text = .ok g := by
  rw [toChars_eq] at h
  exact ofText_eq_ok_iff.mpr ⟨rfl, h.shows ne_nil_of_mem_rows⟩

/-- **What is read as a grid.** A text is accepted exactly if as many lines of it count as
the map has rows, and each of them has as many characters that are not blank as the map
has columns, all of them symbols. The grid has the states that these symbols show, row by
row. So each grid is read back from its text, however that is decorated. -/
theorem ofText_reads (layout : Layout) (text : List Char) :
    ((∃ g, ofText layout.numVars text = .ok g)
        ↔ (rowLines text).length = layout.rows
          ∧ ∀ line ∈ rowLines text, (compact line).length = layout.cols
            ∧ ∀ c ∈ compact line, c ∈ ['0', '1', 'X', 'x', '-'])
      ∧ (∀ g, ofText layout.numVars text = .ok g →
          g.layout = layout ∧ Shows ((rowLines text).flatMap compact) g.cells)
      ∧ ∀ g : Grid, g.layout = layout → Decorated g.toChars text →
          ofText layout.numVars text = .ok g := by
  refine ⟨exists_ofText_eq_ok_iff, fun g h => ?_, ?_⟩
  · obtain ⟨hlayout, hshows⟩ := ofText_eq_ok_iff.mp h
    rw [← flatten_rows, List.flatMap]
    exact ⟨hlayout, List.rel_flatten hshows⟩
  · rintro g rfl h
    exact ofText_of_decorated h

/-- A grid of three variables in each of the states. -/
def mixedGrid : Grid :=
  ⟨⟨3, by decide, by decide⟩, [.on, .dontCare, .off, .on, .off, .on, .off, .off], rfl⟩

/-- The text of that grid with a comment, a blank line and blanks put in, line ends of
two characters, and its don't-care in another spelling. -/
def mixedText : List Char :=
  ['#', 'B', '\r'] ++ '\n' :: (['1', ' ', '-', '0', '1', '\r'] ++ '\n' ::
    (['\t'] ++ '\n' :: (['0', '1', '0', '0', '\r'] ++ '\n' :: [' ', '#'])))

/-- The theorem on this text. -/
theorem ofText_reads_mixedText :
    Decorated mixedGrid.toChars mixedText ∧ ofText 3 mixedText = .ok mixedGrid
      ∧ Shows ((rowLines mixedText).flatMap compact) mixedGrid.cells := by
  have hreturn : Spread [] ['\r'] := .blank rfl (by decide) .nil
  have hfirst : Spread ['1', 'X', '0', '1'] ['1', ' ', '-', '0', '1', '\r'] :=
    .kept (by decide) (.blank rfl (by decide) (.respelled (.inr rfl)
      (.kept (by decide) (.kept (by decide) hreturn))))
  have hsecond : Spread ['0', '1', '0', '0'] ['0', '1', '0', '0', '\r'] :=
    .kept (by decide) (.kept (by decide) (.kept (by decide) (.kept (by decide) hreturn)))
  have hcomment : Idle ['#', 'B', '\r'] := ⟨by decide, .inr ⟨[], ['B', '\r'], nofun, rfl⟩⟩
  have hblank : Idle ['\t'] := ⟨by decide, .inl (List.forall_mem_singleton.mpr rfl)⟩
  have hlast : Idle [' ', '#'] :=
    ⟨by decide, .inr ⟨[' '], [], List.forall_mem_singleton.mpr rfl, rfl⟩⟩
  have hdecorated : Decorated mixedGrid.toChars mixedText :=
    .idle hcomment (.row hfirst (.idle hblank (.row hsecond (.last hlast))))
  obtain ⟨-, hshows, hread⟩ := ofText_reads ⟨3, by decide, by decide⟩ mixedText
  have hok := hread mixedGrid rfl hdecorated
  exact ⟨hdecorated, hok, (hshows mixedGrid hok).2⟩

end Grid

end Karnaugh
