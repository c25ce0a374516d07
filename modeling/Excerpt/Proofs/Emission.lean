import Excerpt.Emit
import Excerpt.Proofs.Device
import Excerpt.Proofs.Layout.Lines
import Excerpt.Proofs.Settings
import Excerpt.Proofs.Spans

/-! Emission is all or nothing for what is refused, and exact up to the call that fails. A
diagnostic is refused for its options, for the first of its bad spans, or because its
report is too large, and then no call is made; otherwise every device is handed the calls
of one trace. -/
namespace Excerpt

/-- A span for which the sources have two positions. -/
def Span.Accepted (sources : Sources) (config : Config) (span : Span) : Prop :=
  ∃ ends : Position Nat × Position Nat, span.resolve sources config = .ok ends

/-! ## Spans that are refused

Whether a span is accepted, and why not, does not depend on what columns are counted in. -/

section

variable {α : Type} [Add α] [Sub α] [Mod α] [OfNat α 0] [OfNat α 1] [NatCast α]
  {sources : Sources} {config : Config} {e : SpanError}

theorem Span.position_eq_error_iff {span : Span} {offset : Number} :
    (span.position sources config offset : Except SpanError (Position α)) = .error e ↔
      (span.position sources config offset : Except SpanError (Position Nat)) = .error e := by
  unfold position
  cases sources.location span.file offset with
  | none => simp
  | some location =>
    dsimp only
    cases (sources.lineRange span.file location.line).bind fun range =>
      sources.slice span.file range.start ((range.start + location.byteColumn : Nat) : Number)
    · simp
    · simp

theorem exists_ok_iff {ε β : Type} {x : Except ε β} : (∃ y, x = .ok y) ↔ ∀ e, x ≠ .error e := by
  cases x <;> simp

/-- Of two steps in a row the first one that fails is the one that counts. -/
theorem bind_pair_eq_error_iff {ε β γ : Type} {x : Except ε β} {y : Except ε γ} {e : ε} :
    (x >>= fun a => y >>= fun b => pure (a, b)) = .error e ↔
      x = .error e ∨ (∃ a, x = .ok a) ∧ y = .error e := by
  cases x <;> cases y <;> simp [bind, Except.bind, pure, Except.pure]

theorem Span.resolve_error_iff_nat {span : Span} :
    (span.resolve sources config : Except SpanError (Position α × Position α)) = .error e ↔
      (span.resolve sources config : Except SpanError (Position Nat × Position Nat)) =
        .error e := by
  have found (offset : Number) :
      (∃ p, (span.position sources config offset : Except SpanError (Position α)) = .ok p) ↔
        ∃ p, (span.position sources config offset : Except SpanError (Position Nat)) = .ok p := by
    rw [exists_ok_iff, exists_ok_iff]
    exact forall_congr' fun e => not_congr position_eq_error_iff
  unfold resolve
  by_cases unknown : sources.name span.file = none
  · simp [unknown, bind, Except.bind, throw, throwThe, MonadExceptOf.throw]
  · cases span.stop.less span.start with
    | true => simp [unknown, bind, Except.bind, throw, throwThe, MonadExceptOf.throw]
    | false =>
      simp only [unknown, if_false, Bool.false_eq_true]
      refine bind_pair_eq_error_iff.trans (Iff.trans ?_ bind_pair_eq_error_iff.symm)
      apply or_congr position_eq_error_iff
      exact and_congr (found span.start) position_eq_error_iff

theorem Label.resolve_eq_error_iff {label : Label} {order : Nat} :
    (label.resolve sources config order : Except SpanError (ResolvedLabel α)) = .error e ↔
      (label.span.resolve sources config : Except SpanError (Position Nat × Position Nat)) =
        .error e := by
  rw [← Span.resolve_error_iff_nat (α := α)]
  unfold resolve
  cases (label.span.resolve sources config : Except SpanError (Position α × Position α)) <;>
    simp [bind, Except.bind, pure, Except.pure]

theorem Label.accepted_of_resolve {label : Label} {order : Nat} {l : ResolvedLabel α}
    (h : label.resolve sources config order = .ok l) : label.span.Accepted sources config := by
  apply exists_ok_iff.mpr
  intro e bad
  rw [Label.resolve_eq_error_iff.mpr bad] at h
  cases h

end

/-- A shown line that is too long once its tabs are expanded cannot be built. -/
theorem Layout.FileLabels.fault?_of_long_line {f : FileLabels Nat} {line : Nat}
    (shown : line ∈ f.shown)
    (long : Text.longest < (Columns.expand f.tabWidth (f.textAt line)).units) :
    f.fault? ≠ none := by
  intro built
  rw [fault?] at built
  split at built
  · cases built
  split at built
  · cases built
  · rw [Option.map_eq_none_iff, List.findSome?_eq_none_iff] at built
    have whole := (Option.or_eq_none_iff.mp (built line shown)).2
    exact absurd ((Columns.fault?_eq_none_iff _ _).mp whole) (Nat.not_le.mpr long)

theorem layoutFault?_of_long_line {sources : Sources} {config : Config}
    {labels : List (ResolvedLabel Nat)} {l : ResolvedLabel Nat} (member : l ∈ labels)
    (long : Text.longest <
      (Columns.expand config.tabWidth (sources.line l.file l.start.line)).units) :
    layoutFault? sources config labels ≠ none := by
  intro built
  have own : Layout.FileLabels.select sources config labels l.file ∈
      fileLabels sources config labels :=
    Layout.mem_fileLabels.mpr ⟨l, member, rfl⟩
  have inside : l ∈ (Layout.FileLabels.select sources config labels l.file).labels :=
    Layout.FileLabels.mem_select.mpr ⟨member, rfl⟩
  exact Layout.FileLabels.fault?_of_long_line (Layout.FileLabels.start_mem_shown _ inside) long
    (List.findSome?_eq_none_iff.mp built _ own)

/-- A label within one line is in no group but its own and needs no connector. -/
theorem fileLabels_singleton (sources : Sources) (config : Config) {l : ResolvedLabel Nat}
    (single : connectors [l] = []) :
    fileLabels sources config [l] = [⟨sources, config, l.file, [l], []⟩] := by
  have grouped : groupByFile [l] = [(l.file, [l])] := by
    rw [groupByFile, List.filter_nil, List.filter_nil, groupByFile]
  simp only [fileLabels, grouped, List.map_cons, List.map_nil, single]

namespace Diagnostic

section

variable {α : Type} [Add α] [Sub α] [Mod α] [OfNat α 0] [OfNat α 1] [NatCast α]
  {sources : Sources} {config : Config} {d : Diagnostic}

/-- The reason why the first label with a bad span is refused. -/
def FirstBadSpan (sources : Sources) (config : Config) (d : Diagnostic) (e : SpanError) : Prop :=
  ∃ before label after, d.labels = before ++ label :: after ∧
    (∀ other ∈ before, other.span.Accepted sources config) ∧
    (label.span.resolve sources config : Except SpanError (Position Nat × Position Nat)) = .error e

theorem accepted_of_resolveLabels {labels : List (ResolvedLabel α)}
    (h : d.resolveLabels sources config = .ok labels) :
    ∀ label ∈ d.labels, label.span.Accepted sources config := by
  intro label member
  obtain ⟨order, found⟩ := List.mem_iff_getElem?.mp member
  have numbered : (label, order) ∈ d.labels.zipIdx := List.mk_mem_zipIdx_iff_getElem?.mpr found
  obtain ⟨l, _, resolved⟩ := exists_of_forall₂ (forall₂_of_mapM_eq_ok h) numbered
  exact Label.accepted_of_resolve resolved

theorem firstBadSpan_of_resolveLabels {e : SpanError}
    (h : (d.resolveLabels sources config : Except SpanError (List (ResolvedLabel α))) =
      .error e) : d.FirstBadSpan sources config e := by
  obtain ⟨before, ⟨label, order⟩, after, split, good, bad⟩ := exists_first_of_mapM_eq_error h
  refine ⟨before.map (·.1), label, after.map (·.1), ?_, ?_, Label.resolve_eq_error_iff.mp bad⟩
  · have labels : d.labels.zipIdx.map (·.1) = d.labels := List.zipIdx_map_fst 0 d.labels
    rw [← labels, split, List.map_append, List.map_cons]
  · intro other member
    obtain ⟨⟨_, place⟩, inside, rfl⟩ := List.mem_map.mp member
    obtain ⟨l, resolved⟩ := good _ inside
    exact Label.accepted_of_resolve resolved

theorem exists_resolved (h : ∀ label ∈ d.labels, label.span.Accepted sources config) :
    ∃ labels : List (ResolvedLabel α), d.resolveLabels sources config = .ok labels := by
  cases resolved : (d.resolveLabels sources config :
      Except SpanError (List (ResolvedLabel α))) with
  | ok labels => exact ⟨labels, rfl⟩
  | error e =>
    obtain ⟨before, label, after, split, _, bad⟩ := firstBadSpan_of_resolveLabels resolved
    obtain ⟨ends, good⟩ := h label (by simp [split])
    rw [bad] at good
    cases good

/-! ## Reports that are not too large -/

variable [Max α] [Min α] [LT α] [DecidableLT α] [LE α] [DecidableLE α] [DecidableEq α]
  [Coordinate α]

/-- The report of a diagnostic whose labels are resolved. -/
def reportOf (sources : Sources) (options : Options) (config : Config) (d : Diagnostic)
    (labels : List (ResolvedLabel α)) : Document :=
  Palette.report ⟨options.theme.resolve, d.severity⟩ d (layoutLabels sources config labels)

/-- No part of the report of a diagnostic is too large to be put together. -/
structure Buildable (sources : Sources) (options : Options) (config : Config) (d : Diagnostic)
    (labels : List (ResolvedLabel α)) : Prop where
  layouts : Excerpt.layoutFault? sources config labels = none
  report : Palette.reportFault? ⟨options.theme.resolve, d.severity⟩ d
    (layoutLabels sources config labels) = none

variable {options : Options} {labels : List (ResolvedLabel α)}

theorem document_of_bad_span (ok : options.settings.resolve = .ok config) {e : SpanError}
    (bad : (d.resolveLabels sources config : Except SpanError (List (ResolvedLabel α))) =
      .error e) : d.document sources options α = .error (.span e) := by
  rw [document, ok]
  simp only [Diagnostic.layouts, bad]

theorem document_of_layoutFault (ok : options.settings.resolve = .ok config)
    (resolved : d.resolveLabels sources config = .ok labels) {fault : LayoutFault}
    (h : Excerpt.layoutFault? sources config labels = some fault) :
    d.document sources options α =
      .error (.layout ((d.layoutFault? sources config).getD fault)) := by
  rw [document, ok]
  simp only [Diagnostic.layouts, resolved, layoutLabels?, h]

theorem document_of_layouts (ok : options.settings.resolve = .ok config)
    (resolved : d.resolveLabels sources config = .ok labels)
    (h : Excerpt.layoutFault? sources config labels = none) :
    d.document sources options α =
      match Palette.reportFault? ⟨options.theme.resolve, d.severity⟩ d
        (layoutLabels sources config labels) with
      | some fault => .error (.layout fault)
      | none => .ok (d.reportOf sources options config labels) := by
  rw [document, ok]
  simp only [Diagnostic.layouts, resolved, layoutLabels?, h]
  rfl

end

/-- No device is called for a diagnostic. -/
def Unwritten (sources : Sources) (options : Options) (d : Diagnostic) (e : EmitError)
    (α : Type := Nat) [Add α] [Sub α] [Mod α] [Max α] [Min α] [LT α] [DecidableLT α] [LE α]
    [DecidableLE α] [DecidableEq α] [OfNat α 0] [OfNat α 1] [NatCast α] [Coordinate α] : Prop :=
  ∀ (σ : Type) (device : Device σ) (state : σ),
    d.emit device state sources options α = (state, some e)

section

variable {α : Type} [Add α] [Sub α] [Mod α] [Max α] [Min α] [LT α] [DecidableLT α] [LE α]
  [DecidableLE α] [DecidableEq α] [OfNat α 0] [OfNat α 1] [NatCast α] [Coordinate α]

variable {sources : Sources} {options : Options} {config : Config} {d : Diagnostic}
  {labels : List (ResolvedLabel α)}

theorem unwritten_of_document {e : EmitError} (h : d.document sources options α = .error e) :
    d.Unwritten sources options e α := by
  intro σ device state
  rw [emit, h]

theorem emit_of_document {document : Document} (h : d.document sources options α = .ok document)
    {σ : Type} (device : Device σ) (state : σ) :
    d.emit device state sources options α =
      ((device.render state document).1, (device.render state document).2.map .ofFault) := by
  rw [emit, h]

theorem document_of_not_buildable (ok : options.settings.resolve = .ok config)
    (resolved : d.resolveLabels sources config = .ok labels)
    (large : ¬d.Buildable sources options config labels) :
    ∃ fault, d.document sources options α = .error (.layout fault) := by
  cases layouts : Excerpt.layoutFault? sources config labels with
  | some fault => exact ⟨_, document_of_layoutFault ok resolved layouts⟩
  | none =>
    have written := document_of_layouts ok resolved layouts
    cases report : Palette.reportFault? ⟨options.theme.resolve, d.severity⟩ d
        (layoutLabels sources config labels) with
    | some fault =>
      rw [report] at written
      exact ⟨fault, written⟩
    | none => exact absurd ⟨layouts, report⟩ large

theorem unwritten_of_not_buildable (ok : options.settings.resolve = .ok config)
    (resolved : d.resolveLabels sources config = .ok labels)
    (large : ¬d.Buildable sources options config labels) :
    ∃ fault, d.Unwritten sources options (.layout fault) α := by
  obtain ⟨fault, refused⟩ := document_of_not_buildable ok resolved large
  exact ⟨fault, unwritten_of_document refused⟩

theorem document_of_buildable (ok : options.settings.resolve = .ok config)
    (resolved : d.resolveLabels sources config = .ok labels)
    (built : d.Buildable sources options config labels) :
    d.document sources options α = .ok (d.reportOf sources options config labels) := by
  rw [document_of_layouts ok resolved built.layouts, built.report]

theorem unwritten_of_not_fits (ok : options.settings.resolve = .ok config)
    (resolved : d.resolveLabels sources config = .ok labels)
    (built : d.Buildable sources options config labels)
    (long : ¬(d.reportOf sources options config labels).Fits) :
    d.Unwritten sources options (.write (.ofText .tooLong)) α := by
  intro σ device state
  rw [emit_of_document (document_of_buildable ok resolved built),
    device.render_of_not_fits state long]
  rw [← EmitError.ofFault_tooLong]
  rfl

theorem emit_of_fits (ok : options.settings.resolve = .ok config)
    (resolved : d.resolveLabels sources config = .ok labels)
    (built : d.Buildable sources options config labels)
    (fits : (d.reportOf sources options config labels).Fits)
    {σ : Type} (device : Device σ) (state : σ) :
    d.emit device state sources options α =
      let calls := (d.reportOf sources options config labels).trace device.supportsColor
      ((device.feed state calls).1, (device.feed state calls).2.map .ofFault) := by
  rw [emit_of_document (document_of_buildable ok resolved built), device.render_of_fits state fits]

end

end Diagnostic

/-- What is made of a fault of a device: a failure of the emitter is passed on, and any other is
the cause of a failed write unless the message of that would be too long. -/
inductive Fault.Becomes : Fault → EmitError → Prop
  | passed (message : String) : Becomes (.emission message) (.passed message)
  | cause {fault : Fault} (foreign : ∀ message, fault ≠ .emission message)
      (short : Text.units16 ("failed to write diagnostic: " ++ fault.message) ≤ Text.longest) :
      Becomes fault (.write fault)
  | unspoken {fault : Fault} (foreign : ∀ message, fault ≠ .emission message)
      (long : Text.longest < Text.units16 ("failed to write diagnostic: " ++ fault.message)) :
      Becomes fault (.layout (.text .tooLong))

theorem Fault.becomes_ofFault (fault : Fault) : fault.Becomes (.ofFault fault) := by
  have foreign_becomes (foreign : ∀ message, fault ≠ .emission message) :
      fault.Becomes (if Text.units16 (EmitError.write fault).message ≤ Text.longest then
        .write fault else .layout (.text .tooLong)) := by
    split
    · rename_i short
      exact .cause foreign short
    · rename_i long
      exact .unspoken foreign (Nat.lt_of_not_le long)
  cases fault with
  | emission message => exact .passed message
  | error message code => exact foreign_becomes (by simp)
  | value reason => exact foreign_becomes (by simp)

theorem Fault.Becomes.eq_write {fault : Fault} {e : EmitError} (h : fault.Becomes e)
    (foreign : ∀ message, fault ≠ .emission message)
    (short : Text.units16 ("failed to write diagnostic: " ++ fault.message) ≤ Text.longest) :
    e = .write fault := by
  cases h with
  | passed message => exact absurd rfl (foreign message)
  | cause => rfl
  | unspoken _ long => exact absurd short (Nat.not_le.mpr long)

namespace Diagnostic

/-- The calls for a diagnostic on devices with or without colors. A device that never fails
takes all of them, and so does one that would fail later; one that fails after `n` calls
takes these `n`; any device is handed them up to the first that fails. -/
structure WrittenBy (sources : Sources) (options : Options) (d : Diagnostic) (color : Bool)
    (calls : List Call) (α : Type := Nat) [Add α] [Sub α] [Mod α] [Max α] [Min α] [LT α]
    [DecidableLT α] [LE α] [DecidableLE α] [DecidableEq α] [OfNat α 0] [OfNat α 1] [NatCast α]
    [Coordinate α] : Prop where
  steady : d.emit (.recorder color none) [] sources options α = (calls, none)
  complete : ∀ n fault, calls.length ≤ n →
    d.emit (.recorder color (some (n, fault))) [] sources options α = (calls, none)
  cut : ∀ n fault, n < calls.length → ∃ e, fault.Becomes e ∧
    d.emit (.recorder color (some (n, fault))) [] sources options α = (calls.take n, some e)
  handed : ∀ (σ : Type) (device : Device σ) (state : σ), device.supportsColor = color →
    d.emit device state sources options α =
      ((device.feed state calls).1, (device.feed state calls).2.map .ofFault)

section

variable {α : Type} [Add α] [Sub α] [Mod α] [Max α] [Min α] [LT α] [DecidableLT α] [LE α]
  [DecidableLE α] [DecidableEq α] [OfNat α 0] [OfNat α 1] [NatCast α] [Coordinate α]

variable {sources : Sources} {options : Options} {config : Config} {d : Diagnostic}
  {labels : List (ResolvedLabel α)}

theorem emit_recorder_failing (ok : options.settings.resolve = .ok config)
    (resolved : d.resolveLabels sources config = .ok labels)
    (built : d.Buildable sources options config labels)
    (fits : (d.reportOf sources options config labels).Fits)
    (color : Bool) (n : Nat) (fault : Fault) :
    d.emit (.recorder color (some (n, fault))) [] sources options α =
      let calls := (d.reportOf sources options config labels).trace color
      if n < calls.length then (calls.take n, some (.ofFault fault)) else (calls, none) := by
  have fed := Device.feed_new_recorder color n fault
    ((d.reportOf sources options config labels).trace color)
  have emitted := congrArg (fun fed => (fed.1, fed.2.map EmitError.ofFault)) fed
  refine (emit_of_fits ok resolved built fits _ []).trans (emitted.trans ?_)
  dsimp only
  split <;> rfl

theorem writtenBy_trace (ok : options.settings.resolve = .ok config)
    (resolved : d.resolveLabels sources config = .ok labels)
    (built : d.Buildable sources options config labels)
    (fits : (d.reportOf sources options config labels).Fits) (color : Bool) :
    d.WrittenBy sources options color
      ((d.reportOf sources options config labels).trace color) α where
  steady := by
    have fed := Device.feed_recorder color []
      ((d.reportOf sources options config labels).trace color)
    have emitted := congrArg (fun fed => (fed.1, fed.2.map EmitError.ofFault)) fed
    exact (emit_of_fits ok resolved built fits _ []).trans emitted
  complete := by
    intro n fault enough
    rw [emit_recorder_failing ok resolved built fits color n fault]
    exact if_neg (Nat.not_lt.mpr enough)
  cut := by
    intro n fault more
    refine ⟨_, fault.becomes_ofFault, ?_⟩
    rw [emit_recorder_failing ok resolved built fits color n fault]
    exact if_pos more
  handed := by
    rintro σ device state rfl
    exact emit_of_fits ok resolved built fits device state

end

end Diagnostic

section

variable {α : Type} [Add α] [Sub α] [Mod α] [Max α] [Min α] [LT α] [DecidableLT α] [LE α]
  [DecidableLE α] [DecidableEq α] [OfNat α 0] [OfNat α 1] [NatCast α] [Coordinate α]

end

/-! ## A label behind a tab -/

namespace Sample

/-- An error at the letter behind a tab. -/
def atLetter : Diagnostic := ⟨.error, none, "m", [⟨.primary, behindTab, none⟩], []⟩

theorem standard_resolved : Options.standard.settings.resolve = .ok Config.standard := rfl

def letterFound : ResolvedLabel Nat := ⟨.primary, none, (0 : Nat), ⟨1, 5⟩, ⟨1, 6⟩, 0⟩

theorem letter_resolved :
    atLetter.resolveLabels tabbed.sources .standard = .ok [letterFound] := by
  decide +kernel

/-- A tab of some columns. -/
def tabConfig (w : Nat) (wide : 0 < w) : Config where
  tabWidth := w
  linesBefore := 0
  linesAfter := 0
  elisionThreshold := 3
  tabWidth_pos := wide

/-- Where the letter is behind such a tab. -/
def letterBehind (w : Nat) : ResolvedLabel Nat :=
  ⟨.primary, none, (0 : Nat), ⟨1, w + 1⟩, ⟨1, w + 2⟩, 0⟩

def labelsBehind (w : Nat) (wide : 0 < w) : Layout.FileLabels Nat :=
  ⟨tabbed.sources, tabConfig w wide, (0 : Nat), [letterBehind w], []⟩

section

variable (w : Nat) (wide : 0 < w)

theorem fileLabels_behind :
    Excerpt.fileLabels tabbed.sources (tabConfig w wide) [letterBehind w] = [labelsBehind w wide] :=
  fileLabels_singleton _ _ (by cbv)

theorem lineCount_behind : (labelsBehind w wide).lineCount = 1 := by
  show (tabbed.sources.lineCount (0 : Nat)).getD 0 = 1
  decide

theorem text_behind : (labelsBehind w wide).textAt 1 = "\ta" := by
  show tabbed.sources.line (0 : Nat) (1 : Nat) = _
  decide

theorem shown_behind : (labelsBehind w wide).shown = [1] := by
  rw [Layout.FileLabels.shown, lineCount_behind]
  cbv

theorem columns_behind : 1 + Columns.width w "\ta" = w + 2 := by
  have letters : "\ta".toList = ['\t', 'a'] := rfl
  simp [Columns.width, Columns.widthFrom, letters, Columns.endOf, Columns.advance]
  omega

theorem expand_behind : Columns.expand w "\ta" = Strip.repeated w ' ' ++ Strip.ofString "a" := by
  have letters : "\ta".toList = ['\t', 'a'] := rfl
  apply Strip.ext_chars
  simp [Columns.expand, letters, Columns.expandFrom, Columns.advance]

/-- What is put below the letter. -/
def markerBehind (w : Nat) : Marker Nat := ⟨w + 1, w + 2, .primary, 0, none⟩

theorem markers_behind : (labelsBehind w wide).markersAt 1 "\ta" = [[markerBehind w]] := by
  have marked : (letterBehind w).markers 1 (w + 2) = [markerBehind w] := by
    simp [ResolvedLabel.markers, ResolvedLabel.isMultiline, letterBehind, markerBehind]
  show markerRows (markersOn [letterBehind w] 1 (1 + Columns.width w "\ta")) = _
  rw [columns_behind]
  simp [markersOn, marked, markerRows, Marker.sort, placeMarker]

theorem item_behind : (markerBehind w).item = ⟨w + 1, .marker, .primary, "^"⟩ := by
  have one : w + 2 - (w + 1) = 1 := by omega
  simp only [Marker.item, markerBehind, one]
  rfl

theorem layout_behind : layoutLabels tabbed.sources (tabConfig w wide) [letterBehind w] =
    [{ file := (0 : Nat), name := "f", location := ⟨1, w + 1⟩, gutterWidth := 1
       connectorWidth := 0
       blocks := [.source ⟨1, Strip.repeated w ' ' ++ Strip.ofString "a", [],
         [⟨[], [⟨w + 1, .marker, .primary, "^"⟩]⟩]⟩] }] := by
  have rows : annotate [markerBehind w] = [[⟨w + 1, .marker, .primary, "^"⟩]] := by
    rw [← item_behind]
    rfl
  have block : (labelsBehind w wide).sourceBlock 1 =
      ⟨1, Strip.repeated w ' ' ++ Strip.ofString "a", [],
        [⟨[], [⟨w + 1, .marker, .primary, "^"⟩]⟩]⟩ := by
    have tab : (labelsBehind w wide).tabWidth = w := rfl
    rw [Layout.FileLabels.sourceBlock]
    simp only [text_behind, markers_behind, tab, expand_behind, List.flatMap_singleton, rows]
    rfl
  have blocks : (labelsBehind w wide).blocksAfter none [1] =
      [.source ((labelsBehind w wide).sourceBlock 1)] := rfl
  rw [layoutLabels, fileLabels_behind, List.map_cons, List.map_nil, Layout.FileLabels.layout,
    shown_behind, blocks, block]
  rfl

/-- The line can be built as long as there is a text that long. -/
theorem built_behind (short : w + 1 ≤ Text.longest) :
    layoutFault? tabbed.sources (tabConfig w wide) [letterBehind w] = none := by
  have few : shownFault? (labelsBehind w wide).config (labelsBehind w wide).lineCount
      (labelsBehind w wide).labels = none := by
    rw [lineCount_behind]
    cbv
  have line : Columns.fault? w "\ta" = none := by
    have letter : (Strip.ofString "a").units = 1 := by decide
    have blank : Text.charUnits ' ' = 1 := rfl
    rw [Columns.fault?_eq_none_iff, expand_behind, Strip.units_append, letter, Strip.repeated,
      Strip.units_push, blank, Nat.mul_one]
    exact short
  have marker : (markerBehind w).fault? = none := by
    rw [Marker.fault?, Coordinate.fault?_nat]
    show w + 2 - (w + 1) ≤ Text.longest
    omega
  have built : (labelsBehind w wide).faultAt? 1 = none := by
    have tab : (labelsBehind w wide).tabWidth = w := rfl
    rw [Layout.FileLabels.faultAt?]
    simp only [text_behind, markers_behind, tab, line, List.flatten_singleton,
      List.findSome?_singleton, marker, Option.or_none]
  refine layoutFault?_of_one_line (fun f hf => ?_) rfl (shown_behind w wide) few built
  rwa [fileLabels_behind w wide, List.mem_singleton] at hf

end

theorem letter_layout : layoutLabels tabbed.sources .standard [letterFound] =
    [{ file := (0 : Nat), name := "f", location := ⟨1, 5⟩, gutterWidth := 1, connectorWidth := 0
       blocks := [.source ⟨1, "    a", [], [⟨[], [⟨5, .marker, .primary, "^"⟩]⟩]⟩] }] :=
  layout_behind 4 (by decide)

theorem letter_built : layoutFault? tabbed.sources .standard [letterFound] = none :=
  built_behind 4 (by decide) (by decide)

theorem letter_buildable :
    atLetter.Buildable tabbed.sources .standard .standard [letterFound] where
  layouts := letter_built
  report := by rw [letter_layout]; decide

theorem letter_fits :
    (atLetter.reportOf tabbed.sources .standard .standard [letterFound]).Fits := by
  rw [Diagnostic.reportOf, letter_layout]
  decide

/-- A tab that takes up more columns than a text has units. -/
def wideTab : Options where
  settings := { Settings.empty with tabWidth := some (.number (1073741824 : Nat)) }
  theme := .empty

def wideTabConfig : Config where
  tabWidth := 1073741824
  linesBefore := 0
  linesAfter := 0
  elisionThreshold := 3

theorem wideTab_resolved : wideTab.settings.resolve = .ok wideTabConfig := by decide

def letterFoundFar : ResolvedLabel Nat :=
  ⟨.primary, none, (0 : Nat), ⟨1, 1073741825⟩, ⟨1, 1073741826⟩, 0⟩

theorem letter_resolved_far :
    atLetter.resolveLabels tabbed.sources wideTabConfig = .ok [letterFoundFar] := by
  decide +kernel

end Sample

end Excerpt
