import Excerpt.Proofs.Planned
import Excerpt.Proofs.Theme.Styling
import Excerpt.Proofs.Theme.Unstyled
import Excerpt.Proofs.Theme.Wording

/-! Themes never change what is said. Under every theme a diagnostic is refused for one and the
same reason, or has one and the same text; only whether a text is handed over that is longer
than any single text can be depends on how a theme divides it. -/
namespace Excerpt

/-- A document whose whole text is not too long has no joined run that is. -/
theorem Document.fits_of_printed {document : Document}
    (short : Text.unitsOf document.printed ≤ Text.longest) : document.Fits := by
  intro run joined
  have inside : (run.paintedOn .none).units ≤ (document.paintedOn .none).units :=
    Strip.units_le_join (List.mem_map_of_mem joined)
  have whole : (document.paintedOn .none).chars = document.printed :=
    (document.chars_paintedOn_none).trans document.chars_runs.symm
  rw [Strip.units_eq (document.paintedOn .none), whole] at inside
  exact decide_eq_true (Nat.le_trans (run.units_le_paintedOn .none) (Nat.le_trans inside short))

/-- The texts of the calls for a document are what it prints. -/
theorem Document.texts_trace_printed (document : Document) (color : Bool) :
    ((document.trace color).filterMap Call.text?).flatMap Strip.chars = document.printed := by
  rw [texts_trace, List.flatMap_map, Run.chars_coalesce]
  rfl

/-- Calls that write a text, and switch only to styles that set something. -/
structure Trace.Says (calls : List Call) (text : List Char) : Prop where
  text : (calls.filterMap Call.text?).flatMap Strip.chars = text
  styles : ∀ style, .setStyle style ∈ calls → style.attributes ≠ []

namespace Diagnostic

/-- A diagnostic that says a text. Plain text is just that, if there is a text that long. On a
device, with colors or without, the text is handed over in the calls of a trace; only a text
that is too long as a whole may be refused, in which case there is no call. -/
structure Says (sources : Sources) (options : Options) (d : Diagnostic)
    (layouts : List (FileLayout Nat)) (text : List Char) : Prop where
  plain : Text.unitsOf text ≤ Text.longest →
    ∃ strip, d.format sources options false = .ok strip ∧ strip.chars = text
  beyond : ¬Text.unitsOf text ≤ Text.longest →
    d.format sources options false = .error (.layout (.text .tooLong))
  written : (¬Text.unitsOf text ≤ Text.longest ∧
      d.Unwritten sources options (.write (.ofText .tooLong))) ∨
    ∀ color, ∃ calls, d.WrittenBy sources options color calls ∧ Trace.Says calls text ∧
      Palette.LeavesSource ⟨options.theme.resolve, d.severity⟩ d layouts
        (Screen.blank.replay calls).cells

theorem says_of_buildable {sources : Sources} {options : Options} {config : Config}
    {d : Diagnostic} {labels : List (ResolvedLabel Nat)}
    (ok : options.settings.resolve = .ok config)
    (resolved : d.resolveLabels sources config = .ok labels)
    (built : d.Buildable sources options config labels) {text : List Char}
    (printed : (d.reportOf sources options config labels).printed = text) :
    d.Says sources options (layoutLabels sources config labels) text := by
  obtain ⟨plain, beyond⟩ := format_of_buildable ok resolved built printed
  refine ⟨plain, beyond, ?_⟩
  by_cases fits : (d.reportOf sources options config labels).Fits
  · right
    intro color
    refine ⟨_, writtenBy_trace ok resolved built fits color, ⟨?_, ?_⟩,
      Palette.leavesSource_report _ d _ color⟩
    · rw [Document.texts_trace_printed, printed]
    · intro style called
      exact Document.effective_trace (Palette.effective_report _ d _) called
  · left
    exact ⟨fun short => fits (Document.fits_of_printed (printed ▸ short)),
      unwritten_of_not_fits ok resolved built fits⟩

/-- Whether a report can be made, and why not, does not depend on a theme. -/
theorem document_cases (sources : Sources) (settings : Settings) (d : Diagnostic) :
    (∃ e, ∀ theme, d.document sources ⟨settings, theme⟩ = .error e) ∨
    ∃ config labels, settings.resolve = .ok config ∧
      d.resolveLabels sources config = .ok labels ∧
      ∀ theme, d.Buildable sources ⟨settings, theme⟩ config labels := by
  cases ok : settings.resolve with
  | error e =>
    refine .inl ⟨.config e, fun theme => ?_⟩
    simp only [document, ok]
  | ok config =>
    cases resolved : (d.resolveLabels sources config :
        Except SpanError (List (ResolvedLabel Nat))) with
    | error e =>
      exact .inl ⟨.span e, fun theme => document_of_bad_span ok resolved⟩
    | ok labels =>
      cases built : Excerpt.layoutFault? sources config labels with
      | some fault => exact .inl ⟨_, fun theme => document_of_layoutFault ok resolved built⟩
      | none =>
        have same (theme : ThemeOverrides) :=
          Palette.reportFault?_eq ⟨theme.resolve, d.severity⟩ ⟨Theme.standard, d.severity⟩ d
            (layoutLabels sources config labels)
        cases report : Palette.reportFault? ⟨Theme.standard, d.severity⟩ d
            (layoutLabels sources config labels) with
        | some fault =>
          refine .inl ⟨.layout fault, fun theme => ?_⟩
          rw [document_of_layouts ok resolved built, same theme, report]
        | none =>
          exact .inr ⟨config, labels, rfl, resolved,
            fun theme => ⟨built, (same theme).trans report⟩⟩

end Diagnostic

namespace Sample

/-- A tab of which one text can hold one, but not two. -/
def broadTab : Settings := { Settings.empty with tabWidth := some (.number (300000000 : Nat)) }

def broadTabConfig : Config where
  tabWidth := 300000000
  linesBefore := 0
  linesAfter := 0
  elisionThreshold := 3

theorem broadTab_resolved : broadTab.resolve = .ok broadTabConfig := by decide

/-- Gutters are not styled, so that nothing parts the rows of a report. -/
def bareGutter : ThemeOverrides := { ThemeOverrides.empty with gutter := some .empty }

def letterFoundAway : ResolvedLabel Nat :=
  ⟨.primary, none, (0 : Nat), ⟨1, 300000001⟩, ⟨1, 300000002⟩, 0⟩

theorem letter_resolved_away :
    atLetter.resolveLabels tabbed.sources broadTabConfig = .ok [letterFoundAway] := by
  decide +kernel

theorem away_layout : layoutLabels tabbed.sources broadTabConfig [letterFoundAway] =
    [{ file := (0 : Nat), name := "f", location := ⟨1, 300000001⟩, gutterWidth := 1
       connectorWidth := 0
       blocks := [.source ⟨1, Strip.repeated 300000000 ' ' ++ Strip.ofString "a", [],
         [⟨[], [⟨300000001, .marker, .primary, "^"⟩]⟩]⟩] }] :=
  layout_behind 300000000 (by decide)

theorem away_built : layoutFault? tabbed.sources broadTabConfig [letterFoundAway] = none :=
  built_behind 300000000 (by decide) (by decide)

theorem away_buildable (theme : ThemeOverrides) :
    atLetter.Buildable tabbed.sources ⟨broadTab, theme⟩ broadTabConfig [letterFoundAway] where
  layouts := away_built
  report := by
    rw [Palette.reportFault?_eq _ ⟨Theme.standard, atLetter.severity⟩, away_layout]
    decide

theorem away_fits :
    (atLetter.reportOf tabbed.sources ⟨broadTab, .empty⟩ broadTabConfig
      [letterFoundAway]).Fits := by
  rw [Diagnostic.reportOf, away_layout]
  decide

theorem away_not_fits :
    ¬(atLetter.reportOf tabbed.sources ⟨broadTab, bareGutter⟩ broadTabConfig
      [letterFoundAway]).Fits := by
  rw [Diagnostic.reportOf, away_layout]
  decide

end Sample

end Excerpt
