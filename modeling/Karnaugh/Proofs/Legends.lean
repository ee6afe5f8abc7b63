import Karnaugh.Proofs.Labels
import Karnaugh.Proofs.Sheets

/-!
# Legends and drawings

A sheet tells of a term twice: in a line of its legend, and on the loop around
its minterms. The two are made apart from each other. The legend has a line for
each implicant of the answer, as the answer has it, while the drawing skips what
it cannot draw and brings the minterms of the others into order. A line is found
by the place of the loop, which counts what was skipped
(`Sheet.getElem?_legend`).

Both take the color from the palette in turn. They differ where there is no
palette: loops then have the usual colors, and the lines of the legend have none
(`LegendEntry.color_eq_iff`).
-/

namespace Karnaugh

/-- **The line of the legend at a place** is the one of the implicant there. -/
theorem Sheet.getElem?_legend (spec : Spec) (a : Answer) (grid : Option Grid)
    (drawing : Option Drawing) (palette : List String) (k : Nat) :
    (Sheet.of spec a grid drawing palette).legend[k]?
      = a.implicants[k]?.map fun i => LegendEntry.of palette i k := by
  rw [Sheet.of, List.getElem?_map, List.getElem?_zipIdx, Nat.zero_add, Option.map_map]
  rfl

/-- No usual color is blank. -/
theorem standardPalette_getD_ne (k : Nat) :
    standardPalette.getD (k % standardPalette.length) "" ≠ "" := by
  have hall : ∀ j < 8, standardPalette.getD j "" ≠ "" := by decide
  exact hall _ (Nat.mod_lt k (by decide))

/-- **The colors of the legend are those of the loops** exactly if there is a
palette. -/
theorem LegendEntry.color_eq_iff (canvas : Canvas) (i : Implicant) (k : Nat) :
    (LegendEntry.of canvas.palette i k).color
        = canvas.colors.getD (k % canvas.colors.length) ""
      ↔ canvas.palette ≠ [] := by
  unfold LegendEntry.of Canvas.colors
  cases canvas.palette with
  | nil =>
    refine ⟨fun heq => ?_, fun h => absurd rfl h⟩
    exact absurd heq.symm (standardPalette_getD_ne k)
  | cons color rest =>
    refine ⟨fun _ => List.cons_ne_nil color rest, fun _ => ?_⟩
    show (color :: rest).getD (k % max (rest.length + 1) 1) "" = _
    rw [Nat.max_eq_left (Nat.le_add_left 1 rest.length)]
    rfl

/-- **A line of the legend describes a loop** if it is about the same pattern at
the same place, with the same term and the same minterms. -/
structure LegendEntry.Describes (e : LegendEntry) (l : Loop) : Prop where
  /-- The place. -/
  index_eq : e.index = l.index
  /-- The pattern. -/
  pattern_eq : e.pattern = l.pattern
  /-- The term. -/
  term_eq : e.term = l.term
  /-- The minterms, in whatever order. -/
  minterms_iff : ∀ m, m ∈ e.minterms ↔ m ∈ l.minterms

/-- The line of an implicant describes the loop that is labelled for it. -/
theorem Canvas.Labels.describes {canvas : Canvas} {k : Nat} {i : Implicant} {l : Loop}
    (h : canvas.Labels k i l) (palette : List String) :
    (LegendEntry.of palette i k).Describes l where
  index_eq := h.index_eq.symm
  pattern_eq := h.pattern_eq.symm
  term_eq := h.term_eq.symm
  minterms_iff m := by
    rw [h.minterms_eq, mem_ascending]
    rfl

/-- A loop of a drawing is labelled for the implicant at its place. -/
theorem Canvas.exists_labels_of_mem {canvas : Canvas} (h : canvas.geometry.Has canvas.layout)
    {is : List Implicant} {l : Loop} (hl : l ∈ (canvas.drawingOf is).loops) :
    ∃ i, is[l.index]? = some i ∧ canvas.Labels l.index i l := by
  obtain ⟨i, -, hi, -⟩ := (mem_map_place (index_loop? h)).mp (List.mem_map_of_mem hl)
  have hdrawn := (mem_loops_drawingOf h hi).mp ⟨hl, rfl⟩
  exact ⟨i, hi, (labels_of_drawLoop hdrawn).2⟩

namespace Problem

/-- **The legend and the drawing agree.** Whatever a solver answers to a checked
problem with a map, and whatever the settings are, each loop of the drawing has
a line of the legend at its place, and the line describes the loop. They have
the same color exactly if there is a palette. -/
theorem solve_legend (settings : Settings) (spec : Spec) (p : Problem)
    (h : Problem.of settings spec = .ok p) (hle : spec.numVars ≤ maxGridVariables)
    (solver : Solver) (a : Answer) (ha : solver p.spec.request = .ok a) :
    ∃ v d, p.solve solver = .ok v ∧ v.drawing = some d
      ∧ ∀ l ∈ d.loops, ∃ e, v.legend[l.index]? = some e ∧ e.Describes l
        ∧ (e.color = l.color ↔ settings.loops.palette ≠ []) := by
  obtain ⟨hvalid, -, rfl⟩ := of_eq_ok_iff.mp h
  obtain ⟨layout, hlayout⟩ := hvalid.exists_layout ((numVars_of_eq_ok h).trans_le hle)
  refine ⟨_, _, solve_eq_ok ha (draw_eq hlayout a.implicants), rfl, fun l hl => ?_⟩
  obtain ⟨i, hi, hlabels⟩ := Canvas.exists_labels_of_mem (p.settings.canvasFor_has layout) hl
  refine ⟨LegendEntry.of p.settings.loops.palette i l.index, ?_, hlabels.describes _, ?_⟩
  · rw [Sheet.getElem?_legend, hi]
    rfl
  · rw [hlabels.color_eq]
    exact LegendEntry.color_eq_iff (p.settings.canvasFor layout) i l.index

/-- An answer for two variables, of which the first implicant misstates its
minterms. -/
def laterAnswer : Answer where
  expression := ""
  implicants :=
    [⟨⟨[some true, none], by decide, by decide⟩, [0]⟩,
      ⟨⟨[some false, none], by decide, by decide⟩, [1, 0, 1]⟩]
  primes := []
  statistics := .none

/-- The second implicant of the answer has a loop, whatever the settings are. -/
theorem exists_loop_laterAnswer (settings : Settings) :
    ∃ p v d l, Problem.of settings (Spec.of 2 [1, 0] []) = .ok p
      ∧ p.solve (fun _ => .ok laterAnswer) = .ok v ∧ v.drawing = some d
      ∧ l ∈ d.loops ∧ l.index = 1
      ∧ (settings.canvasFor ⟨2, by decide, by decide⟩).Labels 1
        ⟨⟨[some false, none], by decide, by decide⟩, [1, 0, 1]⟩ l
      ∧ v.legend[1]? = some (LegendEntry.of settings.loops.palette
        ⟨⟨[some false, none], by decide, by decide⟩, [1, 0, 1]⟩ 1) := by
  have hregion : Region.classify ⟨2, by decide, by decide⟩ (ascending [1, 0, 1])
      = .ok (.rectangle (.run 0 0) (.run 0 1)) := by decide
  set layout : Layout := ⟨2, by decide, by decide⟩
  set i : Implicant := ⟨⟨[some false, none], by decide, by decide⟩, [1, 0, 1]⟩
  have hgeometry := settings.canvasFor_has layout
  have hdraw : (settings.canvasFor layout).CanDraw i :=
    ⟨fun hmis => hmis.2 (by decide), _, hregion⟩
  obtain ⟨l, hok, -⟩ := Canvas.drawLoop_of_canDraw hgeometry hdraw
  have hsecond : laterAnswer.implicants[1]? = some i := rfl
  obtain ⟨hl, hindex⟩ := (Canvas.mem_loops_drawingOf hgeometry hsecond).mpr hok
  set p : Problem := ⟨settings, (Spec.of 2 [1, 0] []).normalize⟩
  have hdrawing : p.draw laterAnswer.implicants
      = .ok (some ((settings.canvasFor layout).drawingOf laterAnswer.implicants)) := draw_eq rfl _
  refine ⟨p, _, _, l, rfl, solve_eq_ok rfl hdrawing, rfl, hl, hindex,
    (Canvas.labels_of_drawLoop hok).2, ?_⟩
  rw [Sheet.getElem?_legend, hsecond]
  rfl

/-- The theorem at such an answer: the loop of the second implicant has the second
line of the legend, in the color of the palette. -/
theorem solve_legend_laterAnswer :
    ∃ p v d l e, Problem.of .standard (Spec.of 2 [1, 0] []) = .ok p
      ∧ p.solve (fun _ => .ok laterAnswer) = .ok v ∧ v.drawing = some d
      ∧ l ∈ d.loops ∧ l.index = 1 ∧ v.legend[1]? = some e ∧ e.Describes l ∧ e.color = l.color := by
  obtain ⟨p, v, d, l, hp, hv, hd, hl, hindex, -⟩ := exists_loop_laterAnswer .standard
  obtain ⟨v', d', hv', hd', hall⟩ :=
    solve_legend .standard _ p hp (by decide) (fun _ => .ok laterAnswer) laterAnswer rfl
  obtain rfl := Except.ok.inj (hv.symm.trans hv')
  obtain rfl := Option.some.inj (hd.symm.trans hd')
  obtain ⟨e, he, hdescribes, hcolor⟩ := hall l hl
  exact ⟨p, v, d, l, e, hp, hv, hd, hl, hindex, hindex ▸ he, hdescribes,
    hcolor.mpr (List.cons_ne_nil _ _)⟩

/-- **Without a palette the legend has no colors**, and the loops have: at the
second place of the answer, the usual second one. -/
theorem exists_legend_color_ne :
    ∃ p v d l e, Problem.of { Settings.standard with loops := ⟨6, 12, 4, []⟩ }
          (Spec.of 2 [1, 0] []) = .ok p
      ∧ p.solve (fun _ => .ok laterAnswer) = .ok v ∧ v.drawing = some d
      ∧ l ∈ d.loops ∧ l.index = 1 ∧ v.legend[1]? = some e
      ∧ e.color = "" ∧ l.color = "#34C759" := by
  obtain ⟨p, v, d, l, hp, hv, hd, hl, hindex, hlabels, he⟩ :=
    exists_loop_laterAnswer { Settings.standard with loops := ⟨6, 12, 4, []⟩ }
  exact ⟨p, v, d, l, _, hp, hv, hd, hl, hindex, he, rfl, hlabels.color_eq⟩

end Problem

end Karnaugh
