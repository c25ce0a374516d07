import Excerpt.FileTree
import Excerpt.Proofs.Command.Debug
import Excerpt.Proofs.Command.Stages
import Excerpt.Proofs.Themes

/-! A call isolates the failures of its diagnostics and tells the truth about them. -/
namespace Excerpt

/-- The problems of stages, in the order of their codes. -/
def Catalog.ofStages : List Definition :=
  [fileNotFound, unreadableFile, invalidInput, unknownColorMode, invalidOption]

theorem Command.Stops.exists_definition {files : FileSystem} {i : Invocation} {problem : Problem}
    (h : Stops files i problem) : ∃ definition ∈ Catalog.ofStages, ∃ message,
      problem.diagnostic = definition.withMessage message := by
  have unreadable (path : String) (fault : Fault) : ∃ definition ∈ Catalog.ofStages, ∃ message,
      (Problem.unreadable path fault).diagnostic = definition.withMessage message := by
    rw [Problem.diagnostic]
    split
    · exact ⟨Catalog.fileNotFound, by decide, _, rfl⟩
    · exact ⟨Catalog.unreadableFile, by decide, _, rfl⟩
  cases h with
  | colorMode => exact ⟨Catalog.unknownColorMode, by decide, _, rfl⟩
  | option => exact ⟨Catalog.invalidOption, by decide, _, rfl⟩
  | unreadable => exact unreadable _ _
  | input => exact ⟨Catalog.invalidInput, by decide, _, rfl⟩
  | source => exact unreadable _ _

namespace Sample

/-- A directory with an input and a file that has a letter behind a tab. -/
def directory (input : String) : Command.FileSystem :=
  FileTree.read ⟨[("in.json", input), ("f", "\ta")], []⟩

/-- A call without colors. -/
def callOn (tabWidth : Option Setting) : Invocation :=
  ⟨"in.json", "never", tabWidth, none, none, false⟩

/-- A diagnostic whose label ends before it starts, and one that only says something. -/
def mixedText : String :=
  "\x7b\"diagnostics\": [\x7b\"severity\": \"error\", \"message\": \"m\", \"labels\": " ++
    "[\x7b\"file\": \"f\", \"start\": 2, \"end\": 1\x7d]\x7d, " ++
    "\x7b\"severity\": \"note\", \"message\": \"seen\"\x7d]\x7d"

def backward : Diagnostic := ⟨.error, none, "m", [⟨.primary, ⟨0, 2, 1⟩, none⟩], []⟩

def remark : Diagnostic := ⟨.note, none, "seen", [], []⟩

def mixedJob : Session.Job := ⟨tabbed.sources, .standard, false⟩

theorem mixedCall_proceeds :
    Command.Proceeds (directory mixedText) (callOn none) .standard
      ⟨mixedJob, [backward, remark]⟩ where
  known := ⟨.never, rfl⟩
  valid := rfl
  options := rfl
  debug := rfl
  loaded := by
    let inputs : List DiagnosticInput :=
      [⟨.error, none, "m", [⟨.primary, "f", 2, 1, none⟩], []⟩, ⟨.note, none, "seen", [], []⟩]
    have parsed : parseInput mixedText = .ok inputs := by decide +kernel
    have paths : sourcePaths inputs = ["f"] := by decide +kernel
    have read : directory mixedText (Command.sourcePlace (callOn none) "f") = .ok "\ta" := by
      decide +kernel
    refine ⟨mixedText, inputs, [("f", "\ta")], tabbed, rfl, parsed, ?_, rfl, rfl⟩
    rw [paths]
    exact .cons ⟨rfl, read⟩ .nil

def backwardError : EmitError := .span ⟨⟨0, 2, 1⟩, .reversed⟩

theorem backward_document :
    backward.document mixedJob.sources mixedJob.options = .error backwardError :=
  Diagnostic.document_of_bad_span standard_resolved (by decide)

def backwardReport : Document :=
  (Problem.render ((0 + 1 : Nat) : Number) backwardError.message).report

theorem backward_short : Text.units16
    (Problem.render ((0 + 1 : Nat) : Number) backwardError.message).said ≤ Text.longest := by
  decide +kernel

theorem backwardReport_fits : backwardReport.FitsOn .none := by decide +kernel

def remarkReport : Document :=
  Palette.report ⟨Options.standard.theme.resolve, .note⟩ remark ([] : List (FileLayout Nat))

theorem remark_document :
    remark.document mixedJob.sources mixedJob.options = .ok remarkReport :=
  Diagnostic.document_of_few standard_resolved rfl (by decide)

theorem remarkReport_fits : remarkReport.FitsOn .none := by decide

/-- What is written for both. -/
def mixedOutput : String :=
  "error[GTCLI006]: cannot render diagnostic #1: invalid span 2..1 in file 0: " ++
    "start is after end\n = help: Check that every label span lies inside its file.\n" ++
    "note: seen\n"

theorem mixedOutput_eq : (backwardReport.paintedOn .none).chars ++
    (remarkReport.paintedOn .none).chars = mixedOutput.toList := by
  decide +kernel

end Sample

namespace Sample

def letterText : String :=
  "\x7b\"diagnostics\": [\x7b\"severity\": \"error\", \"message\": \"m\", \"labels\": " ++
    "[\x7b\"file\": \"f\", \"start\": 1, \"end\": 2\x7d]\x7d]\x7d"

/-- A call for the letter behind a tab. -/
def letterCall (tabWidth : Nat) (debug : Bool) : Invocation :=
  Command.logging (callOn (some (.number tabWidth))) debug

def letterJob (tabWidth : Nat) (debug : Bool) : Session.Job :=
  ⟨tabbed.sources, ⟨Command.settings (callOn (some (.number tabWidth))), .empty⟩, debug⟩

def letterRun (tabWidth : Nat) (debug : Bool) : Session (Terminal Descriptor) :=
  Command.run Sink.descriptor .ready .none (directory letterText) (letterCall tabWidth debug)

variable {tabWidth : Nat} {config : Config}

theorem letterCall_proceeds (debug : Bool)
    (valid : (letterJob tabWidth debug).options.settings.resolve = .ok config) :
    Command.Proceeds (directory letterText) (letterCall tabWidth debug) config
      ⟨letterJob tabWidth debug, [atLetter]⟩ where
  known := ⟨.never, rfl⟩
  valid := valid
  options := rfl
  debug := rfl
  loaded := by
    let input : DiagnosticInput := ⟨.error, none, "m", [⟨.primary, "f", 1, 2, none⟩], []⟩
    have own : directory letterText "in.json" = .ok letterText := rfl
    have parsed : parseInput letterText = .ok [input] := by decide +kernel
    have paths : sourcePaths [input] = ["f"] := by decide +kernel
    have read : directory letterText (Command.sourcePlace (letterCall tabWidth debug) "f") =
        .ok "\ta" := by
      show directory letterText (Command.sourcePlace (callOn none) "f") = _
      decide +kernel
    refine ⟨letterText, [input], [("f", "\ta")], tabbed, own, parsed, ?_, rfl, rfl⟩
    rw [paths]
    exact .cons ⟨rfl, read⟩ .nil

/-- What the only diagnostic adds decides how the call ends. -/
theorem letterRun_outcome (debug : Bool)
    (valid : (letterJob tabWidth debug).options.settings.resolve = .ok config) :
    ∃ piece, Session.Outcome .none (letterJob tabWidth debug) config 0 atLetter piece ∧
      (letterRun tabWidth debug).log =
        piece.log ++ Session.summary (if piece.failed then 1 else 0) 1 ∧
      (letterRun tabWidth debug).exitCode = if piece.failed then some 1 else none := by
  have steady : (Session.start (Terminal.fresh Descriptor.ready)).device.sink.Steady :=
    fun _ _ never => nomatch never
  obtain ⟨pieces, each, adds⟩ := Session.renderAll_adds .none valid steady [atLetter]
  have run : letterRun tabWidth debug = _ :=
    Command.run_of_proceeds Sink.descriptor Descriptor.ready .none (letterCall_proceeds debug valid)
  have level : Command.level (letterCall tabWidth debug) .none = .none := rfl
  rw [level] at run
  rw [← run] at adds
  cases each with
  | @cons _ piece _ _ own rest =>
    cases rest
    refine ⟨piece, own, adds.log.trans ?_, adds.exitCode.trans ?_⟩
    · show [] ++ ([piece].flatMap Session.Piece.log ++ _) = _
      rw [List.nil_append, List.flatMap_singleton, List.countP_singleton]
      rfl
    · rw [List.any_cons, List.any_nil, Bool.or_false]
      rfl

theorem wide_not_buildable :
    ¬atLetter.Buildable tabbed.sources wideTab wideTabConfig [letterFoundFar] := by
  intro built
  exact layoutFault?_of_long_line (List.mem_singleton_self letterFoundFar) (by decide)
    built.layouts

def awayReport : Document :=
  atLetter.reportOf tabbed.sources ⟨broadTab, .empty⟩ broadTabConfig [letterFoundAway]

theorem awayReport_document :
    atLetter.document tabbed.sources ⟨broadTab, .empty⟩ = .ok awayReport :=
  Diagnostic.document_of_buildable broadTab_resolved letter_resolved_away (away_buildable .empty)

theorem awayReport_fits : awayReport.FitsOn .none := by
  rw [awayReport, Diagnostic.reportOf, away_layout]
  decide

theorem awayReport_outline : awayReport.outline = .error .tooLong := by
  rw [awayReport, Diagnostic.reportOf, away_layout]
  decide +kernel

end Sample

end Excerpt
