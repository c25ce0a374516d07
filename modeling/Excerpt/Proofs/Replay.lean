import Excerpt.Proofs.Cells
import Excerpt.Proofs.Device

/-! Replaying a trace. The calls for a document leave its cells on the device that takes
them, and no style active; each call is needed where it is made. -/
namespace Excerpt

/-- What a device shows: the style that is active, and the cells written so far. -/
structure Screen where
  active : Option Style
  cells : List Cell

namespace Screen

def blank : Screen := ⟨none, []⟩

def take (s : Screen) : Call → Screen
  | .setStyle style => { s with active := some style }
  | .resetStyle => { s with active := none }
  | .write text => { s with cells := s.cells ++ text.chars.map (·, s.active) }

def replay (s : Screen) (calls : List Call) : Screen := calls.foldl take s

/-- A call that changes what is shown: text that is not empty, a style other than the
active one, or none in place of one. -/
def Needs (s : Screen) : Call → Prop
  | .setStyle style => ¬SameStyle s.active (some style)
  | .resetStyle => s.active ≠ none
  | .write text => text.chars ≠ []

end Screen

namespace Call

/-- The text that is written, if any is. -/
def text? : Call → Option Strip
  | .write text => some text
  | _ => none

end Call

namespace Trace

/-- Calls without a superfluous one: each is needed on the screen it finds, and of two
neighbours one writes. -/
structure MinimalFrom (s : Screen) (calls : List Call) : Prop where
  needed : ∀ before call after, calls = before ++ call :: after → (s.replay before).Needs call
  apart : calls.IsChain fun a b => a.text? ≠ none ∨ b.text? ≠ none

theorem MinimalFrom.nil (s : Screen) : MinimalFrom s [] where
  needed before call after h := by simp at h
  apart := .nil

theorem MinimalFrom.cons {s : Screen} {call : Call} {calls : List Call}
    (h : MinimalFrom (s.take call) calls) (own : s.Needs call)
    (next : ∀ other ∈ calls.head?, call.text? ≠ none ∨ other.text? ≠ none) :
    MinimalFrom s (call :: calls) where
  needed before other after split := by
    cases before with
    | nil =>
      cases split
      exact own
    | cons first before =>
      cases split
      exact h.needed before other after rfl
  apart := by
    cases calls with
    | nil => exact .singleton _
    | cons other calls => exact List.isChain_cons_cons.mpr ⟨next other rfl, h.apart⟩

theorem MinimalFrom.write {active : Option Style} {shown : List Cell} {text : Strip}
    {calls : List Call} (h : MinimalFrom ⟨active, shown ++ text.chars.map (·, active)⟩ calls)
    (filled : text.chars ≠ []) : MinimalFrom ⟨active, shown⟩ (.write text :: calls) :=
  MinimalFrom.cons h filled fun _ _ => .inl (Option.some_ne_none text)

/-- A change of style is needed in front of text that is written in another one. -/
theorem MinimalFrom.switch {s : Screen} {call : Call} {text : Strip} {calls : List Call}
    (h : MinimalFrom (s.take call) (.write text :: calls)) (own : s.Needs call) :
    MinimalFrom s (call :: .write text :: calls) := by
  refine h.cons own fun other first => .inr ?_
  cases first
  exact Option.some_ne_none text

/-- The calls for some runs are minimal where none of the runs is empty. -/
theorem minimal_styledFrom {runs : List Run} (filled : ∀ run ∈ runs, run.text.chars ≠ [])
    (active : Option Style) (shown : List Cell) :
    MinimalFrom ⟨active, shown⟩ (styledFrom active runs) := by
  induction runs generalizing active shown with
  | nil =>
    cases active with
    | none => exact .nil _
    | some style => exact MinimalFrom.cons (.nil _) (Option.some_ne_none style) (by simp)
  | cons run runs ih =>
    obtain ⟨own, later⟩ := List.forall_mem_cons.mp filled
    obtain ⟨_ | style, text⟩ := run
    · cases active with
      | none => exact (ih later none _).write own
      | some before =>
        have text_next := (ih later none (shown ++ text.chars.map (·, none))).write own
        exact MinimalFrom.switch text_next (Option.some_ne_none before)
    · rw [styledFrom]
      split
      · exact (ih later active _).write own
      · rename_i other
        have text_next :=
          (ih later (some style) (shown ++ text.chars.map (·, some style))).write own
        exact MinimalFrom.switch text_next other

theorem minimal_plain {runs : List Run} (filled : ∀ run ∈ runs, run.text.chars ≠ [])
    (s : Screen) : MinimalFrom s (plain runs) := by
  induction runs generalizing s with
  | nil => exact .nil _
  | cons run runs ih =>
    obtain ⟨own, later⟩ := List.forall_mem_cons.mp filled
    exact MinimalFrom.write (ih later _) own

/-- On a device with colors the runs leave their cells, and no style. -/
theorem replay_styledFrom (active : Option Style) (shown : List Cell) (runs : List Run) :
    ∃ cells, (Screen.mk active shown).replay (styledFrom active runs) = ⟨none, shown ++ cells⟩ ∧
      SameCells cells (runs.flatMap Run.cells) := by
  induction runs generalizing active shown with
  | nil =>
    refine ⟨[], ?_, .refl _⟩
    rw [List.append_nil]
    cases active <;> rfl
  | cons run runs ih =>
    obtain ⟨_ | style, text⟩ := run
    · obtain ⟨cells, eq, same⟩ := ih none (shown ++ text.chars.map (·, none))
      refine ⟨text.chars.map (·, none) ++ cells, ?_, .append (.refl _) same⟩
      rw [← List.append_assoc, ← eq]
      cases active <;> rfl
    · rw [styledFrom]
      split
      · rename_i alike
        obtain ⟨cells, eq, same⟩ := ih active (shown ++ text.chars.map (·, active))
        refine ⟨text.chars.map (·, active) ++ cells, ?_, .append (.restyle alike _) same⟩
        rw [← List.append_assoc, ← eq]
        rfl
      · obtain ⟨cells, eq, same⟩ := ih (some style) (shown ++ text.chars.map (·, some style))
        refine ⟨text.chars.map (·, some style) ++ cells, ?_, .append (.refl _) same⟩
        rw [← List.append_assoc, ← eq]
        rfl

theorem replay_plain (s : Screen) (runs : List Run) :
    (s.replay (plain runs)).cells.map (·.1) =
      s.cells.map (·.1) ++ runs.flatMap fun run => run.text.chars := by
  induction runs generalizing s with
  | nil => exact (List.append_nil _).symm
  | cons run runs ih =>
    have own : (run.text.chars.map (·, s.active)).map (·.1) = run.text.chars :=
      Run.map_fst_cells ⟨s.active, run.text⟩
    have step : s.replay (plain (run :: runs)) =
        (s.take (.write run.text)).replay (plain runs) := rfl
    rw [step, ih, List.flatMap_cons, ← List.append_assoc, ← own, ← List.map_append]
    rfl

theorem texts_styledFrom (active : Option Style) (runs : List Run) :
    (styledFrom active runs).filterMap Call.text? = runs.map (·.text) := by
  have silent (style : Option Style) : (reset style).filterMap Call.text? = [] := by
    cases style <;> rfl
  induction runs generalizing active with
  | nil => exact silent active
  | cons run runs ih =>
    obtain ⟨_ | style, text⟩ := run
    · rw [styledFrom, List.filterMap_append, silent, List.nil_append, List.map_cons, ← ih none]
      rfl
    · rw [styledFrom]
      split
      · rw [List.map_cons, ← ih active]
        rfl
      · rw [List.map_cons, ← ih (some style)]
        rfl

theorem texts_plain (runs : List Run) : (plain runs).filterMap Call.text? = runs.map (·.text) := by
  rw [plain, List.filterMap_map]
  exact congrFun List.filterMap_eq_map runs

end Trace

namespace Document

theorem minimal_trace (document : Document) (supportsColor : Bool) :
    Trace.MinimalFrom .blank (document.trace supportsColor) := by
  have filled := Run.filled_coalesce document.runs
  cases supportsColor with
  | true => exact Trace.minimal_styledFrom filled none []
  | false => exact Trace.minimal_plain filled .blank

theorem texts_trace (document : Document) (supportsColor : Bool) :
    (document.trace supportsColor).filterMap Call.text? =
      (Run.coalesce document.runs).map (·.text) := by
  cases supportsColor with
  | true => exact Trace.texts_styledFrom none _
  | false => exact Trace.texts_plain _

theorem replay_trace (document : Document) :
    SameCells (Screen.blank.replay (document.trace true)).cells document.cells ∧
      (Screen.blank.replay (document.trace true)).active = none := by
  obtain ⟨cells, eq, same⟩ := Trace.replay_styledFrom none [] (Run.coalesce document.runs)
  have shown : Screen.blank.replay (document.trace true) = ⟨none, cells⟩ := eq
  rw [shown]
  exact ⟨same.trans document.sameCells_coalesce, rfl⟩

/-- The characters of a document are shown with and without colors. -/
theorem chars_replay_trace (document : Document) (supportsColor : Bool) :
    (Screen.blank.replay (document.trace supportsColor)).cells.map (·.1) =
      document.texts.flatMap Strip.chars := by
  cases supportsColor with
  | true =>
    rw [document.replay_trace.1.map_fst]
    exact map_fst_cellsUnder none document
  | false =>
    rw [← document.chars_runs, ← Run.chars_coalesce]
    exact Trace.replay_plain .blank _

end Document

/-- Rendering shows a document. Every device is handed the calls of one trace, unless a
joined run is too long for a text: then there is no call. The trace shows the characters
of all text nodes in order; on a device with colors each has the style of the nearest
region around it, up to what it sets, and no style is left active; a device without colors
is only handed text, in the same pieces. No call of the trace is superfluous. -/
theorem render_shows_document (document : Document) (color : Bool) :
    (document.Fits →
      (Device.recorder color none).render [] document = (document.trace color, none) ∧
      ∀ (σ : Type) (device : Device σ) (state : σ), device.supportsColor = color →
        device.render state document = device.feed state (document.trace color)) ∧
    (¬document.Fits → ∀ (σ : Type) (device : Device σ) (state : σ),
      device.render state document = (state, some (.ofText .tooLong))) ∧
    (Screen.blank.replay (document.trace color)).cells.map (·.1) =
      document.texts.flatMap Strip.chars ∧
    (color = true →
      SameCells (Screen.blank.replay (document.trace color)).cells document.cells ∧
        (Screen.blank.replay (document.trace color)).active = none) ∧
    (color = false → ∀ call ∈ document.trace color, call.text? ≠ none) ∧
    (document.trace color).filterMap Call.text? = (document.trace !color).filterMap Call.text? ∧
    Trace.MinimalFrom .blank (document.trace color) := by
  refine ⟨fun fits => ⟨?_, ?_⟩, fun long σ device state => device.render_of_not_fits state long,
    document.chars_replay_trace color, ?_, ?_, ?_, document.minimal_trace color⟩
  · rw [Device.render_of_fits _ _ fits]
    exact Device.feed_recorder color [] _
  · rintro σ device state rfl
    exact device.render_of_fits state fits
  · rintro rfl
    exact document.replay_trace
  · rintro rfl call member
    obtain ⟨run, _, rfl⟩ := List.mem_map.mp member
    exact Option.some_ne_none run.text
  · rw [document.texts_trace, document.texts_trace]

/-! ## A document with nested regions and an empty text -/

namespace Sample

def bold : Style := { Style.empty with bold := some true }

/-- Bold, though written otherwise. -/
def alsoBold : Style := { bold with dim := some false }

def styledDocument : Document :=
  [.text "a", .styled bold [.text "b", .styled .empty [.text ""], .styled alsoBold [.text "c"]],
    .text "\n"]

theorem styledDocument_fits : styledDocument.Fits := by decide

def longDocument : Document := [.text (.repeated Text.longest ' '), .text (.repeated 1 ' ')]

end Sample

theorem render_shows_document_sample :
    (Device.recorder true none).render [] Sample.styledDocument =
        ([.write "a", .setStyle Sample.bold, .write "bc", .resetStyle, .write "\n"], none) ∧
      SameCells (Screen.blank.replay (Sample.styledDocument.trace true)).cells
        [('a', none), ('b', some Sample.bold), ('c', some Sample.alsoBold), ('\n', none)] := by
  obtain ⟨fits, _, _, shown, _⟩ := render_shows_document Sample.styledDocument true
  have trace : Sample.styledDocument.trace true =
      [.write "a", .setStyle Sample.bold, .write "bc", .resetStyle, .write "\n"] := by
    decide +kernel
  exact ⟨trace ▸ (fits Sample.styledDocument_fits).1, (shown rfl).1⟩

/-- Two texts of one style that are too long to be joined are not rendered at all. -/
theorem render_refuses_long_document :
    (∀ text ∈ Sample.longDocument.texts, text.fits = true ∧ text.isEmpty = false) ∧
      (Device.recorder true none).render [] Sample.longDocument =
        ([], some (.ofText .tooLong)) := by
  have long : ¬Sample.longDocument.Fits := by decide +kernel
  exact ⟨by decide +kernel, Device.render_of_not_fits _ _ long⟩

end Excerpt
