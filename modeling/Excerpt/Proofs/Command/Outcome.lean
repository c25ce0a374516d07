import Excerpt.Command.Session
import Excerpt.Proofs.Device.Descriptor
import Excerpt.Proofs.Emission

/-! What becomes of the diagnostics of a run. Each adds a piece to what the run leaves behind:
its own text, or that of a problem with its place, and entries of the log. The piece depends
on the diagnostic and its place alone, so the pieces of a run stand one behind the other. -/
namespace Excerpt

/-! ## The text of a diagnostic -/

/-- What a diagnostic is rendered as on a terminal: its report, of which each run is painted.
As far as there is a text that long, it is the formatted diagnostic. -/
structure Diagnostic.RendersAs (sources : Sources) (options : Options) (level : ColorLevel)
    (d : Diagnostic) (text : List Char) : Prop where
  painted : ∃ document, d.document sources options = .ok document ∧ document.FitsOn level ∧
    (document.paintedOn level).chars = text
  formatted : Text.unitsOf text ≤ Text.longest → ∃ strip,
    d.format sources options (level != .none) = .ok strip ∧ strip.chars = text

namespace Document

/-- All levels with colors paint the same. -/
theorem paintedOn_of_color (document : Document) {level : ColorLevel} (color : level ≠ .none) :
    document.paintedOn level = document.paintedOn .basic := by
  have same : Run.paintedOn level = Run.paintedOn .basic := by
    funext run
    obtain ⟨_ | style, text⟩ := run <;> cases level <;> first | rfl | exact absurd rfl color
  rw [paintedOn, paintedOn, same]

theorem plain_or_ansi (document : Document) (level : ColorLevel) :
    (if (level != .none) = true then Document.ansi else Document.plain) document =
      (document.paintedOn level).fitting? := by
  by_cases bare : level = .none
  · subst bare
    exact document.onTerminal_eq .none
  · rw [if_pos (by simpa using bare), document.paintedOn_of_color bare]
    exact document.onTerminal_eq .basic

end Document

namespace Diagnostic

variable {sources : Sources} {options : Options} {level : ColorLevel} {d : Diagnostic}
  {document : Document}

theorem rendersAs_of_fitsOn (own : d.document sources options = .ok document)
    (fits : document.FitsOn level) :
    d.RendersAs sources options level (document.paintedOn level).chars where
  painted := ⟨document, own, fits, rfl⟩
  formatted short := by
    have whole : (document.paintedOn level).units ≤ Text.longest := by
      rw [Strip.units_eq]
      exact short
    refine ⟨document.paintedOn level, ?_, rfl⟩
    rw [format, Diagnostic.written, own]
    dsimp only
    rw [document.plain_or_ansi, Strip.fitting?_of_fits whole]
    rfl

/-- What emitting a diagnostic leaves on a descriptor that never fails. -/
theorem emit_descriptor (own : d.document sources options = .ok document) (level : ColorLevel)
    {t : Terminal Descriptor} (steady : t.sink.Steady) :
    ∃ t' fault, d.emit (.terminal level Sink.descriptor) t sources options =
        (t', fault.map EmitError.ofFault) ∧
      t.sink.Writes (document.pieces level) t'.sink fault :=
  ⟨_, _, emit_of_document own _ t, Device.render_descriptor (opens_document own) level steady⟩

end Diagnostic

/-! ## Pieces of a run -/

namespace Session

/-- What is added to what a run leaves behind, and whether that makes it fail. -/
structure Piece where
  text : List Char
  log : List LogEntry
  failed : Bool

/-- Some pieces one behind the other. -/
def Piece.all (pieces : List Piece) : Piece where
  text := pieces.flatMap Piece.text
  log := pieces.flatMap Piece.log
  failed := pieces.any Piece.failed

structure Adds (s s' : Session (Terminal Descriptor)) (piece : Piece) : Prop where
  device : s.device.sink.Gains s'.device.sink piece.text
  log : s'.log = s.log ++ piece.log
  exitCode : s'.exitCode = if piece.failed then some 1 else s.exitCode

variable {level : ColorLevel} {s s' s'' : Session (Terminal Descriptor)}

theorem Adds.nothing (s : Session (Terminal Descriptor)) : s.Adds s (.all []) where
  device := .refl _
  log := (List.append_nil _).symm
  exitCode := rfl

theorem Adds.cons {piece : Piece} {pieces : List Piece} (first : s.Adds s' piece)
    (rest : s'.Adds s'' (.all pieces)) : s.Adds s'' (.all (piece :: pieces)) where
  device := first.device.trans rest.device
  log := by
    rw [rest.log, first.log, List.append_assoc]
    rfl
  exitCode := by
    rw [rest.exitCode, first.exitCode]
    show _ = if piece.failed || (Piece.all pieces).failed then _ else _
    cases piece.failed <;> cases (Piece.all pieces).failed <;> rfl

theorem Adds.steady {piece : Piece} (h : s.Adds s' piece) (steady : s.device.sink.Steady) :
    s'.device.sink.Steady :=
  h.device.steady steady

/-- What the failure of a terminal is called that never fails but for a text that is too long. -/
def cutMessage : String := (EmitError.write (.ofText .tooLong)).message

end Session

/-! ## Problems -/

/-- A diagnostic that points into no file has a report unless it says too much. -/
theorem Diagnostic.document_of_unlabeled {sources : Sources} {options : Options} {config : Config}
    {d : Diagnostic} (ok : options.settings.resolve = .ok config) (bare : d.labels = []) :
    d.document sources options =
      match Palette.reportFault? ⟨options.theme.resolve, d.severity⟩ d
        ([] : List (FileLayout Nat)) with
      | some fault => .error (.layout fault)
      | none => .ok (Palette.report ⟨options.theme.resolve, d.severity⟩ d
          ([] : List (FileLayout Nat))) := by
  have resolved : d.resolveLabels sources config =
      (.ok [] : Except SpanError (List (ResolvedLabel Nat))) := by
    rw [resolveLabels, bare]
    rfl
  have no_files : fileLabels sources config ([] : List (ResolvedLabel Nat)) = [] := by
    rw [fileLabels, groupByFile]
    rfl
  have no_layouts : layoutLabels sources config ([] : List (ResolvedLabel Nat)) = [] := by
    rw [layoutLabels, no_files]
    rfl
  have built : Excerpt.layoutFault? sources config ([] : List (ResolvedLabel Nat)) = none := by
    rw [Excerpt.layoutFault?, no_files]
    rfl
  have own := document_of_layouts ok resolved built
  rw [reportOf, no_layouts] at own
  exact own

theorem Diagnostic.document_of_few {sources : Sources} {options : Options} {config : Config}
    {d : Diagnostic} (ok : options.settings.resolve = .ok config) (bare : d.labels = [])
    (few : Palette.reportFault? ⟨options.theme.resolve, d.severity⟩ d
      ([] : List (FileLayout Nat)) = none) :
    d.document sources options = .ok (Palette.report ⟨options.theme.resolve, d.severity⟩ d
      ([] : List (FileLayout Nat))) := by
  rw [document_of_unlabeled ok bare, few]

namespace Problem

/-- What is said behind the severity and the code of a problem. -/
def said (p : Problem) : String := ": " ++ p.diagnostic.message

/-- What is reported of a problem. -/
def report (p : Problem) : Document :=
  Palette.report ⟨Options.standard.theme.resolve, .error⟩ p.diagnostic
    ([] : List (FileLayout Nat))

/-- A problem is reported by its own text; the log only has it if that is too long, and nothing of
it is written if that is so for what it says. -/
inductive Reported (level : ColorLevel) (p : Problem) : Session.Piece → Prop
  | whole {text : List Char}
      (own : p.diagnostic.RendersAs Store.empty.sources .standard level text) :
      Reported level p ⟨text, [], true⟩
  | cut {document : Document} {text : List Char}
      (own : p.diagnostic.document Store.empty.sources .standard = .ok document)
      (long : ¬document.FitsOn level) (part : text <+: (document.paintedOn level).chars) :
      Reported level p ⟨text, [.error p.diagnostic.summary,
        .error ("while reporting: " ++ Session.cutMessage)], true⟩
  | unsaid (long : Text.longest < Text.units16 p.said) :
      Reported level p ⟨[], [.error p.diagnostic.summary,
        .error ("while reporting: " ++ (EmitError.layout (.text .tooLong)).message)], true⟩

theorem exists_definition (p : Problem) :
    ∃ definition ∈ Catalog.all, ∃ message, p.diagnostic = definition.withMessage message := by
  cases p with
  | colorMode => exact ⟨Catalog.unknownColorMode, by decide, _, rfl⟩
  | option => exact ⟨Catalog.invalidOption, by decide, _, rfl⟩
  | input => exact ⟨Catalog.invalidInput, by decide, _, rfl⟩
  | render => exact ⟨Catalog.renderFailure, by decide, _, rfl⟩
  | unreadable path fault =>
    rw [diagnostic]
    split
    · exact ⟨Catalog.fileNotFound, by decide, _, rfl⟩
    · exact ⟨Catalog.unreadableFile, by decide, _, rfl⟩

/-- The reports of the catalog have short headings and few notes. -/
theorem short_of_catalog : ∀ definition ∈ Catalog.all,
    Text.units16 (Palette.heading (definition.withMessage "")) ≤ Text.longest ∧
      Palette.notesFault? ⟨Options.standard.theme.resolve, .error⟩ ([] : List (FileLayout Nat))
        (definition.withMessage "").notes = none := by
  decide +kernel

theorem severity_of_catalog : ∀ definition ∈ Catalog.all, definition.severity = .error := by
  decide

/-- Problems point into no file, so what they say decides whether they can be reported. -/
theorem document_eq (p : Problem) : p.diagnostic.document Store.empty.sources .standard =
    if Text.units16 p.said ≤ Text.longest then .ok p.report
    else .error (.layout (.text .tooLong)) := by
  obtain ⟨definition, listed, message, same⟩ := p.exists_definition
  obtain ⟨heading, notes⟩ := short_of_catalog definition listed
  have severity : p.diagnostic.severity = .error :=
    (congrArg Diagnostic.severity same).trans (severity_of_catalog definition listed)
  have header : Palette.headerFault? p.diagnostic =
      if Text.units16 p.said ≤ Text.longest then none else some (.text .tooLong) := by
    have own : Text.units16 (Palette.heading p.diagnostic) ≤ Text.longest := same ▸ heading
    simp only [Palette.headerFault?, own, true_and]
    rfl
  have few : Palette.notesFault? ⟨Options.standard.theme.resolve, .error⟩
      ([] : List (FileLayout Nat)) p.diagnostic.notes = none := same ▸ notes
  have whole : Palette.reportFault? ⟨Options.standard.theme.resolve, .error⟩ p.diagnostic
      ([] : List (FileLayout Nat)) = Palette.headerFault? p.diagnostic := by
    rw [Palette.reportFault?, few, List.findSome?_nil, Option.or_none, Option.or_none]
  have ok : Options.standard.settings.resolve = .ok .standard := rfl
  rw [Diagnostic.document_of_unlabeled ok (same ▸ rfl), severity, whole, header]
  by_cases short : Text.units16 p.said ≤ Text.longest
  · rw [if_pos short, if_pos short]
    rfl
  · rw [if_neg short, if_neg short]

/-- The text of a problem is determined where it can be written. -/
theorem Reported.of_fitsOn {level : ColorLevel} {p : Problem} {piece : Session.Piece}
    (h : p.Reported level piece) (short : Text.units16 p.said ≤ Text.longest)
    (fits : p.report.FitsOn level) :
    piece = ⟨(p.report.paintedOn level).chars, [], true⟩ := by
  have built := p.document_eq
  rw [if_pos short] at built
  cases h with
  | whole own =>
    obtain ⟨document, made, _, rfl⟩ := own.painted
    cases built.symm.trans made
    rfl
  | cut made long =>
    cases built.symm.trans made
    exact absurd fits long
  | unsaid long => exact absurd short (Nat.not_le.mpr long)

theorem Reported.failed {level : ColorLevel} {p : Problem} {piece : Session.Piece}
    (h : p.Reported level piece) : piece.failed = true := by
  cases h <;> rfl

end Problem

namespace Session

/-- What the report of a problem adds to a run. -/
theorem report_adds (level : ColorLevel) {s : Session (Terminal Descriptor)}
    (steady : s.device.sink.Steady) (p : Problem) :
    ∃ piece, p.Reported level piece ∧
      s.Adds (s.report (.terminal level Sink.descriptor) p.diagnostic) piece := by
  have built := p.document_eq
  by_cases short : Text.units16 p.said ≤ Text.longest
  case neg =>
    rw [if_neg short] at built
    have refused := Diagnostic.unwritten_of_document built _
      (Device.terminal level Sink.descriptor) s.device
    refine ⟨_, .unsaid (Nat.lt_of_not_le short), ?_⟩
    rw [report, refused]
    exact ⟨.refl _, List.append_assoc _ _ _, rfl⟩
  rw [if_pos short] at built
  obtain ⟨t, fault, emitted, writes⟩ := Diagnostic.emit_descriptor built level steady
  rw [report, emitted]
  cases writes with
  | whole fit gains =>
    refine ⟨_, .whole (Diagnostic.rendersAs_of_fitsOn built fit), ?_, ?_, rfl⟩
    · rw [Document.chars_paintedOn]
      exact gains
    · exact (List.append_nil _).symm
  | cut long part gains =>
    refine ⟨_, .cut built long ((Document.chars_paintedOn _ level).symm ▸ part), gains, ?_, rfl⟩
    exact List.append_assoc _ _ _

end Session

/-! ## Diagnostics of the input -/

/-- With valid options a diagnostic has a report, unless a span is bad or it is too large. -/
theorem Diagnostic.exists_document_or_error {sources : Sources} {options : Options}
    {config : Config} (ok : options.settings.resolve = .ok config) (d : Diagnostic) :
    (∃ e, d.FirstBadSpan sources config e ∧ d.document sources options = .error (.span e)) ∨
      (∀ label ∈ d.labels, label.span.Accepted sources config) ∧
        ((∃ fault, d.document sources options = .error (.layout fault)) ∨
          ∃ document, d.document sources options = .ok document) := by
  cases resolved : (d.resolveLabels sources config :
      Except SpanError (List (ResolvedLabel Nat))) with
  | error e =>
    exact .inl ⟨e, firstBadSpan_of_resolveLabels resolved, document_of_bad_span ok resolved⟩
  | ok labels =>
    refine .inr ⟨accepted_of_resolveLabels resolved, ?_⟩
    by_cases built : d.Buildable sources options config labels
    · exact .inr ⟨_, document_of_buildable ok resolved built⟩
    · exact .inl (document_of_not_buildable ok resolved built)

namespace Session

/-- Why a diagnostic is refused before anything of it is written. -/
inductive Refused (job : Job) (config : Config) (d : Diagnostic) : EmitError → Prop
  | span {e : SpanError} (bad : d.FirstBadSpan job.sources config e)
      (stopped : d.document job.sources job.options = .error (.span e)) :
      Refused job config d (.span e)
  | report {fault : LayoutFault}
      (valid : ∀ label ∈ d.labels, label.span.Accepted job.sources config)
      (large : d.document job.sources job.options = .error (.layout fault)) :
      Refused job config d (.layout fault)
  | outline {document : Document} {fault : TextFault}
      (valid : ∀ label ∈ d.labels, label.span.Accepted job.sources config)
      (own : d.document job.sources job.options = .ok document) (debug : job.debug = true)
      (large : document.outline = .error fault) : Refused job config d (.layout (.text fault))

/-- What is logged of a document that is emitted. -/
inductive Logs (job : Job) (document : Document) : List LogEntry → Prop
  | nothing (quiet : job.debug = false) : Logs job document []
  | outline {outline : Strip} (debug : job.debug = true) (own : document.outline = .ok outline) :
      Logs job document [.info outline]

/-- What a diagnostic at a place adds to a run. Only the first case is none of a failure; the
last one can only be met by a text that is too long. -/
inductive Outcome (level : ColorLevel) (job : Job) (config : Config) (index : Nat)
    (d : Diagnostic) : Piece → Prop
  | shown {document : Document} {text : List Char} {log : List LogEntry}
      (valid : ∀ label ∈ d.labels, label.span.Accepted job.sources config)
      (own : d.document job.sources job.options = .ok document) (logs : Logs job document log)
      (renders : d.RendersAs job.sources job.options level text) :
      Outcome level job config index d ⟨text, log, false⟩
  | refused {e : EmitError} {piece : Piece} (why : Refused job config d e)
      (reported : (Problem.render ((index + 1 : Nat) : Number) e.message).Reported level piece) :
      Outcome level job config index d piece
  | cut {document : Document} {text : List Char} {log : List LogEntry}
      (valid : ∀ label ∈ d.labels, label.span.Accepted job.sources config)
      (own : d.document job.sources job.options = .ok document) (logs : Logs job document log)
      (long : ¬document.FitsOn level) (part : text <+: (document.paintedOn level).chars) :
      Outcome level job config index d ⟨text, log ++ [.error cutMessage], true⟩

variable {level : ColorLevel} {job : Job} {config : Config} {s : Session (Terminal Descriptor)}
  {d : Diagnostic}

theorem Refused.document_ne_ok {e : EmitError} (h : Refused job config d e) {document : Document}
    (quiet : job.debug = false) : d.document job.sources job.options ≠ .ok document := by
  intro own
  cases h with
  | span _ stopped => exact absurd (stopped.symm.trans own) (by simp)
  | report _ large => exact absurd (large.symm.trans own) (by simp)
  | outline _ _ debug => exact absurd (quiet.symm.trans debug) (by simp)

/-- Without a report a diagnostic is refused for the reason why there is none. -/
theorem Outcome.of_error {e : EmitError} {index : Nat} {piece : Piece}
    (h : Outcome level job config index d piece)
    (stopped : d.document job.sources job.options = .error e) :
    (Problem.render ((index + 1 : Nat) : Number) e.message).Reported level piece := by
  cases h with
  | shown _ own | cut _ own => exact absurd (stopped.symm.trans own) (by simp)
  | refused why reported =>
    cases why with
    | span _ own | report _ own =>
      cases stopped.symm.trans own
      exact reported
    | outline _ own => exact absurd (stopped.symm.trans own) (by simp)

/-- A report that can be written is all that a diagnostic adds. -/
theorem Outcome.of_fitsOn {document : Document} {index : Nat} {piece : Piece}
    (h : Outcome level job config index d piece) (quiet : job.debug = false)
    (own : d.document job.sources job.options = .ok document) (fits : document.FitsOn level) :
    piece = ⟨(document.paintedOn level).chars, [], false⟩ := by
  cases h with
  | shown _ _ logs renders =>
    obtain ⟨same, made, _, rfl⟩ := renders.painted
    cases own.symm.trans made
    cases logs with
    | nothing => rfl
    | outline debug => exact absurd (quiet.symm.trans debug) (by simp)
  | refused why => exact absurd own (why.document_ne_ok quiet)
  | cut _ made _ long =>
    cases own.symm.trans made
    exact absurd fits long

/-- A report that is too long for an outline fails where outlines are logged. -/
theorem Outcome.failed_of_outline {document : Document} {fault : TextFault} {index : Nat}
    {piece : Piece} (h : Outcome level job config index d piece) (debug : job.debug = true)
    (own : d.document job.sources job.options = .ok document)
    (large : document.outline = .error fault) : piece.failed = true := by
  cases h with
  | shown _ made logs =>
    cases own.symm.trans made
    cases logs with
    | nothing quiet => exact absurd (debug.symm.trans quiet) (by simp)
    | outline _ short => exact absurd (large.symm.trans short) (by simp)
  | refused _ reported => exact reported.failed
  | cut => rfl

theorem attempt_of_error {σ : Type} (device : Device σ) (s : Session σ) {e : EmitError}
    (h : d.document job.sources job.options = .error e) :
    s.attempt device job d = (s, some e) := by
  rw [attempt]
  cases debug : job.debug with
  | true =>
    have no_outline : d.outline job.sources job.options = .error e := by
      rw [Diagnostic.outline, Diagnostic.written, h]
    simp [no_outline]
  | false => simp [Diagnostic.emit, h]

theorem attempt_of_document {σ : Type} (device : Device σ) (s : Session σ) {document : Document}
    (own : d.document job.sources job.options = .ok document) :
    (∃ fault, job.debug = true ∧ document.outline = .error fault ∧
      s.attempt device job d = (s, some (.layout (.text fault)))) ∨
    ∃ log, Logs job document log ∧
      s.attempt device job d =
        let emitted := d.emit device s.device job.sources job.options
        ({ s with device := emitted.1, log := s.log ++ log }, emitted.2) := by
  have outlined : d.outline job.sources job.options =
      document.outline.mapError fun fault => .layout (.text fault) := by
    rw [Diagnostic.outline, Diagnostic.written, own]
  rw [attempt]
  cases debug : job.debug with
  | true =>
    cases outline : document.outline with
    | error fault =>
      refine .inl ⟨fault, rfl, rfl, ?_⟩
      simp [outlined, outline, Except.mapError]
    | ok outline =>
      refine .inr ⟨_, .outline debug outline, ?_⟩
      simp [outlined, outline, Except.mapError, add]
  | false =>
    refine .inr ⟨_, .nothing debug, ?_⟩
    simp

/-- A refused diagnostic is reported with its place. -/
theorem render_of_refused {e : EmitError} (why : Refused job config d e) (index : Nat)
    (steady : s.device.sink.Steady)
    (attempted : s.attempt (.terminal level Sink.descriptor) job d = (s, some e)) :
    ∃ piece, Outcome level job config index d piece ∧
      s.Adds (s.render (.terminal level Sink.descriptor) job index d).1 piece ∧
      (s.render (.terminal level Sink.descriptor) job index d).2 = piece.failed := by
  obtain ⟨piece, reported, adds⟩ :=
    report_adds level steady (.render ((index + 1 : Nat) : Number) e.message)
  have rendered : s.render (.terminal level Sink.descriptor) job index d =
      (s.report (.terminal level Sink.descriptor)
        (Problem.render ((index + 1 : Nat) : Number) e.message).diagnostic, true) := by
    rw [render, attempted]
    cases why <;> rfl
  rw [rendered]
  exact ⟨piece, .refused why reported, adds, reported.failed.symm⟩

/-- What a diagnostic adds to a run. -/
theorem render_adds (ok : job.options.settings.resolve = .ok config)
    (steady : s.device.sink.Steady) (index : Nat) (d : Diagnostic) :
    ∃ piece, Outcome level job config index d piece ∧
      s.Adds (s.render (.terminal level Sink.descriptor) job index d).1 piece ∧
      (s.render (.terminal level Sink.descriptor) job index d).2 = piece.failed := by
  rcases d.exists_document_or_error ok with
    ⟨e, bad, error⟩ | ⟨valid, ⟨fault, error⟩ | ⟨document, own⟩⟩
  · exact render_of_refused (.span bad error) index steady (attempt_of_error _ s error)
  · exact render_of_refused (.report valid error) index steady (attempt_of_error _ s error)
  rcases attempt_of_document (.terminal level Sink.descriptor) s own with
    ⟨fault, debug, large, attempted⟩ | ⟨log, logs, attempted⟩
  · exact render_of_refused (.outline valid own debug large) index steady attempted
  obtain ⟨t, fault, emitted, writes⟩ := Diagnostic.emit_descriptor own level steady
  rw [emitted] at attempted
  dsimp only at attempted
  rw [render, attempted]
  cases writes with
  | whole fit gains =>
    refine ⟨_, .shown valid own logs (Diagnostic.rendersAs_of_fitsOn own fit), ⟨?_, rfl, rfl⟩, rfl⟩
    rw [Document.chars_paintedOn]
    exact gains
  | cut long part gains =>
    refine ⟨_, .cut valid own logs long ((document.chars_paintedOn level).symm ▸ part),
      ⟨gains, ?_, rfl⟩, rfl⟩
    exact List.append_assoc _ _ _

/-- What the diagnostics from a place on add to a run, one after the other. -/
theorem renderFrom_adds (ok : job.options.settings.resolve = .ok config)
    (steady : s.device.sink.Steady) (index : Nat) (ds : List Diagnostic) :
    ∃ pieces, List.Forall₂ (fun d piece => Outcome level job config d.2 d.1 piece)
        (ds.zipIdx index) pieces ∧
      s.Adds (s.renderFrom (.terminal level Sink.descriptor) job index ds).1 (.all pieces) ∧
      (s.renderFrom (.terminal level Sink.descriptor) job index ds).2 =
        pieces.countP Piece.failed := by
  induction ds generalizing s index with
  | nil => exact ⟨[], .nil, .nothing s, rfl⟩
  | cons d ds ih =>
    obtain ⟨piece, own, first, failed⟩ := render_adds ok steady index d
    obtain ⟨pieces, each, rest, count⟩ := ih (first.steady steady) (index + 1)
    refine ⟨piece :: pieces, .cons own each, first.cons rest, ?_⟩
    rw [List.countP_cons, ← count, ← failed, renderFrom]
    dsimp only
    split <;> simp_all

/-- What is logged at the end of a run. -/
def summary (failures total : Nat) : List LogEntry :=
  if failures = 0 then []
  else [.error (Decimal.digits failures ++ " of " ++ Decimal.digits total ++
    " diagnostics could not be rendered")]

/-- The pieces of a whole run, and what it logs at its end. -/
theorem renderAll_adds (level : ColorLevel) (ok : job.options.settings.resolve = .ok config)
    (steady : s.device.sink.Steady) (ds : List Diagnostic) :
    ∃ pieces, List.Forall₂ (fun d piece => Outcome level job config d.2 d.1 piece)
        ds.zipIdx pieces ∧
      s.Adds (s.renderAll (.terminal level Sink.descriptor) job ds)
        ⟨pieces.flatMap Piece.text,
          pieces.flatMap Piece.log ++ summary (pieces.countP Piece.failed) ds.length,
          pieces.any Piece.failed⟩ := by
  obtain ⟨pieces, each, adds, count⟩ := renderFrom_adds ok steady 0 ds
  refine ⟨pieces, each, ?_⟩
  rw [renderAll]
  dsimp only
  rw [count, summary]
  have some_failed : pieces.any Piece.failed = true ↔ pieces.countP Piece.failed ≠ 0 := by
    rw [List.any_eq_true, ← Nat.pos_iff_ne_zero, List.countP_pos_iff]
  split
  · refine ⟨adds.device, ?_, adds.exitCode⟩
    rw [List.append_nil]
    exact adds.log
  · rename_i failures
    refine ⟨adds.device, ?_, ?_⟩
    · have logged : (s.renderFrom (.terminal level Sink.descriptor) job 0 ds).1.log =
          s.log ++ pieces.flatMap Piece.log := adds.log
      rw [← List.append_assoc, ← logged]
      rfl
    · rw [some_failed.mpr failures]
      rfl

end Session
end Excerpt
