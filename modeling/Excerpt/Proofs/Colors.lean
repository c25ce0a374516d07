import Excerpt.Proofs.Ansi.Painted
import Excerpt.Proofs.Cells
import Excerpt.Proofs.Collected

/-! Colored output shows the plain text. On a display every character of a document has the
attributes of the nearest region around it, but line ends have none. -/
namespace Excerpt

/-- Whether a line feed under the same style comes next. -/
def Cell.endsLine (style : Option Style) : List Cell → Bool
  | [] => false
  | (c, next) :: _ => c == '\n' && decide (SameStyle style next)

/-- How cells are to be shown: with what their styles set. Line feeds, and carriage returns in
front of them under one style, are to be shown without. -/
def Cell.glyphs : List Cell → List Glyph
  | [] => []
  | (c, style) :: cells =>
    (c, if c = '\n' ∨ c = '\r' ∧ endsLine style cells then .plain else .ofStyle? style) ::
      glyphs cells

namespace Cell

theorem endsLine_congr {a b : Option Style} (same : SameStyle a b) {cells others : List Cell}
    (h : SameCells cells others) : endsLine a cells = endsLine b others := by
  cases h with
  | nil => rfl
  | cons alike rest =>
    rename_i x y _ _
    have styles : SameStyle a x.2 ↔ SameStyle b y.2 :=
      ⟨fun h => same.symm.trans (h.trans alike.2), fun h => same.trans (h.trans alike.2.symm)⟩
    rw [endsLine, endsLine, alike.1, decide_eq_decide.mpr styles]

theorem glyphs_congr {cells others : List Cell} (h : SameCells cells others) :
    glyphs cells = glyphs others := by
  induction h with
  | nil => rfl
  | cons alike rest ih =>
    rw [glyphs, glyphs, ih, alike.1, endsLine_congr alike.2 rest, Rendition.ofStyle?_congr alike.2]

theorem map_fst_glyphs (cells : List Cell) : (glyphs cells).map (·.1) = cells.map (·.1) := by
  induction cells with
  | nil => rfl
  | cons cell cells ih => rw [glyphs, List.map_cons, List.map_cons, ih]

/-- Text of one style is shown by itself in front of cells of another one. -/
theorem glyphs_run (style : Option Style) (cs : List Char) {rest : List Cell}
    (other : ∀ next ∈ rest.head?, ¬SameStyle style next.2) :
    glyphs (cs.map (·, style) ++ rest) = (Rendition.ofStyle? style).glyphs cs ++ glyphs rest := by
  fun_induction Rendition.glyphs (Rendition.ofStyle? style) cs with
  | case1 => rfl
  | case2 cs ih =>
    have own : SameStyle style style := .refl style
    simp [glyphs, endsLine, own, ih]
  | case3 cs ih => simp [glyphs, ih]
  | case4 c cs no_pair no_feed ih =>
    have stays : ¬(c = '\n' ∨ c = '\r' ∧ endsLine style (cs.map (·, style) ++ rest) = true) := by
      rintro (feed | ⟨rfl, ends⟩)
      · exact no_feed feed
      · cases cs with
        | nil =>
          cases rest with
          | nil => cases ends
          | cons next rest =>
            have same : SameStyle style next.2 := by
              simp only [List.map_nil, List.nil_append, endsLine, Bool.and_eq_true,
                decide_eq_true_eq] at ends
              exact ends.2
            exact other next rfl same
        | cons next cs =>
          have feed : next = '\n' := by
            simp only [List.map_cons, List.cons_append, endsLine, Bool.and_eq_true,
              beq_iff_eq] at ends
            exact ends.1
          exact no_pair cs rfl (by rw [feed])
    rw [List.map_cons, List.cons_append, glyphs, if_neg stays, ih]
    rfl

/-- Joined runs are shown one by one. -/
theorem glyphs_runs {runs : List Run} (filled : ∀ run ∈ runs, run.text.chars ≠ [])
    (differ : runs.IsChain fun a b => ¬SameStyle a.style b.style) :
    glyphs (runs.flatMap Run.cells) = runs.flatMap Run.glyphs := by
  induction runs with
  | nil => rfl
  | cons run runs ih =>
    obtain ⟨_, later⟩ := List.forall_mem_cons.mp filled
    have other : ∀ next ∈ (runs.flatMap Run.cells).head?, ¬SameStyle run.style next.2 := by
      intro next first
      cases runs with
      | nil => cases first
      | cons following runs =>
        obtain ⟨c, cs, text⟩ := List.exists_cons_of_ne_nil (later following List.mem_cons_self)
        rw [List.flatMap_cons, Run.cells, text] at first
        cases first
        exact (List.isChain_cons_cons.mp differ).1
    rw [List.flatMap_cons, List.flatMap_cons, ← ih later differ.of_cons]
    exact glyphs_run run.style run.text.chars other

end Cell

namespace Document

theorem glyphs_cells (document : Document) :
    Cell.glyphs document.cells = (Run.coalesce document.runs).flatMap Run.glyphs := by
  rw [← Cell.glyphs_congr document.sameCells_coalesce]
  exact Cell.glyphs_runs (Run.filled_coalesce _) (Run.differ_coalesce _)

theorem units_paintedOn_none (document : Document) (level : ColorLevel) :
    (document.paintedOn .none).units ≤ (document.paintedOn level).units := by
  rw [paintedOn, paintedOn]
  induction Run.coalesce document.runs with
  | nil => exact Nat.le_refl _
  | cons run runs ih =>
    have own : (run.paintedOn .none).units ≤ (run.paintedOn level).units := by
      have bare : run.paintedOn .none = run.text := Terminal.painted_none run.style run.text
      exact bare ▸ run.units_le_paintedOn level
    simp only [List.map_cons, Strip.units_eq, Strip.chars_join, List.flatMap_cons,
      Text.unitsOf_append] at own ih ⊢
    omega

/-- What the painted runs of a document show. -/
theorem shows_paintedOn {document : Document}
    (free : ∀ text ∈ document.texts, '\x1b' ∉ text.chars) :
    Shows .plain (document.paintedOn .basic).chars (Cell.glyphs document.cells) .plain := by
  have bare : '\x1b' ∉ (document.paintedOn .none).chars := by
    rw [chars_paintedOn_none]
    intro inside
    obtain ⟨text, member, escape⟩ := List.mem_flatMap.mp inside
    exact free text member escape
  have painted : (document.paintedOn .basic).chars =
      (Run.coalesce document.runs).flatMap fun run => (run.paintedOn .basic).chars := by
    rw [paintedOn, Strip.chars_join, List.flatMap_map]
  rw [painted, document.glyphs_cells]
  refine .flatMap fun run joined => run.shows_painted fun escape => bare ?_
  rw [paintedOn, Strip.chars_join, List.flatMap_map]
  refine List.mem_flatMap.mpr ⟨run, joined, ?_⟩
  rwa [Run.paintedOn, Terminal.painted_none]

end Document

/-- Colored output shows the plain text. Where the text of a document brings no escape
characters, its colored and its plain output are two strips, each of them refused if it is
too long for a text. What a display shows of the colored one are the characters of the plain
one, each with what the nearest region around it sets, though line ends have no attribute:
line feeds, and carriage returns in front of them in the same joined run. No attribute is on
at the line feeds and at the end. Less its sequences, the colored output is the plain one. -/
theorem ansi_shows_plain (document : Document)
    (free : ∀ text ∈ document.texts, '\x1b' ∉ text.chars) :
    ∃ painted plain : Strip,
      document.ansi = painted.fitting? ∧ document.plain = plain.fitting? ∧
      (painted.fits = true → plain.fits = true) ∧
      plain.chars = document.texts.flatMap Strip.chars ∧
      (Display.blank.run painted.chars).shown.map (·.1) = plain.chars ∧
      (Display.blank.run painted.chars).shown = Cell.glyphs document.cells ∧
      (Display.blank.run painted.chars).shown = (Run.coalesce document.runs).flatMap Run.glyphs ∧
      (Display.blank.run painted.chars).Resting ∧
      (∀ front back, painted.chars = front ++ '\n' :: back → (Display.blank.run front).Resting) ∧
      Ansi.withoutSequences painted.chars = plain.chars := by
  have shows := document.shows_paintedOn free
  have shown : Display.blank.run (document.paintedOn .basic).chars =
      ⟨.plain, .text, Cell.glyphs document.cells⟩ := shows.run []
  have printed : (Cell.glyphs document.cells).map (·.1) = (document.paintedOn .none).chars := by
    rw [Cell.map_fst_glyphs, document.chars_paintedOn_none]
    exact Document.map_fst_cellsUnder none document
  refine ⟨document.paintedOn .basic, document.paintedOn .none, document.onTerminal_eq .basic,
    document.onTerminal_eq .none, ?_, document.chars_paintedOn_none, ?_, ?_, ?_, ?_, ?_, ?_⟩
  · intro fits
    exact decide_eq_true
      (Nat.le_trans (document.units_paintedOn_none .basic) (of_decide_eq_true fits))
  · rw [shown, printed]
  · rw [shown]
  · rw [shown, document.glyphs_cells]
  · rw [shown]
    exact ⟨rfl, rfl⟩
  · intro front back split
    exact shows.rests front back split []
  · have stripped := shows.stripped []
    rwa [List.append_nil, printed, Ansi.withoutSequences, List.append_nil] at stripped

/-! ## A document with a line end inside of a region -/

namespace Sample

def loud : Style := { Style.ofForeground .red with bold := some true, dim := some true }

def loudDocument : Document :=
  [.text "a", .styled loud [.text "b\r", .text "\nc\r"], .styled .empty [.text "\n"], .text "d"]

def loudGlyph (c : Char) : Glyph := (c, ⟨some .red, true, true, false, false⟩)

def plainGlyph (c : Char) : Glyph := (c, .plain)

end Sample

/-- A carriage return in front of a line feed of another style is shown as it is. -/
theorem ansi_shows_plain_sample :
    ∃ painted : Strip, Sample.loudDocument.ansi = painted.fitting? ∧
      (Display.blank.run painted.chars).shown =
        [Sample.plainGlyph 'a', Sample.loudGlyph 'b', Sample.plainGlyph '\r',
          Sample.plainGlyph '\n', Sample.loudGlyph 'c', Sample.loudGlyph '\r',
          Sample.plainGlyph '\n', Sample.plainGlyph 'd'] := by
  obtain ⟨painted, plain, colored, _, _, _, _, shown, _⟩ :=
    ansi_shows_plain Sample.loudDocument (by decide +kernel)
  have glyphs : Cell.glyphs Sample.loudDocument.cells =
      [Sample.plainGlyph 'a', Sample.loudGlyph 'b', Sample.plainGlyph '\r',
        Sample.plainGlyph '\n', Sample.loudGlyph 'c', Sample.loudGlyph '\r',
        Sample.plainGlyph '\n', Sample.plainGlyph 'd'] := by
    decide +kernel
  exact ⟨painted, colored, shown.trans glyphs⟩

end Excerpt
