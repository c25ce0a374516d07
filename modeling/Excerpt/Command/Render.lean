import Excerpt.Command.Arguments
import Excerpt.Command.ColorMode
import Excerpt.Command.Session
import Excerpt.Input.Load
import Excerpt.Input.Schema
import Excerpt.Path

/-! The command: it checks its color mode and options, reads the input and the
files it names, and renders the diagnostics. The first of these steps that fails
is the only problem that is reported. -/
namespace Excerpt.Command

/-- A file system answers a path with a text or a fault. -/
abbrev FileSystem := (path : String) → Except Fault String

def settings (i : Invocation) : Settings :=
  { Settings.empty with
    tabWidth := i.tabWidth
    contextLines := i.context
    elisionThreshold := i.elisionThreshold }

/-- The options of a call, if they are in range. -/
def checkOptions (i : Invocation) : Except Problem Options :=
  match (settings i).resolve with
  | .ok _ => .ok { Options.standard with settings := settings i }
  | .error e => .error (.option e.message)

def readInput (files : FileSystem) (i : Invocation) : Except Problem (List DiagnosticInput) :=
  match files i.input with
  | .error fault => .error (.unreadable i.input fault)
  | .ok text =>
    match parseInput text with
    | .error e => .error (.input i.input e.message)
    | .ok inputs => .ok inputs

/-- The texts of some files, whose paths start at the directory of the input. -/
def readSources (files : FileSystem) (i : Invocation) : List String → Except Problem SourceTexts
  | [] => .ok []
  | path :: paths =>
    match files (Path.resolve (Path.directory i.input) path) with
    | .error fault => .error (.unreadable path fault)
    | .ok text => do
      let rest ← readSources files i paths
      return (path, text) :: rest

/-- What a call asks for. -/
structure Plan where
  job : Session.Job
  diagnostics : List Diagnostic

def plan (files : FileSystem) (i : Invocation) : Except Problem Plan := do
  let options ← checkOptions i
  let inputs ← readInput files i
  let sources ← readSources files i (sourcePaths inputs)
  match Input.load inputs sources with
  | .error e => throw (.input i.input e.message)
  | .ok (store, diagnostics) => return ⟨⟨store.sources, options, i.debug⟩, diagnostics⟩

/-- Runs a call on a sink, for a terminal that supports `detected` by itself. An
unknown color mode is reported without colors. -/
def run {σ : Type} (sink : Sink σ) (state : σ) (detected : ColorLevel) (files : FileSystem)
    (i : Invocation) : Session (Terminal σ) :=
  let start := Session.start (Terminal.fresh state)
  match ColorMode.ofName? i.color with
  | none => start.report (.terminal .none sink) (Problem.colorMode i.color).diagnostic
  | some mode =>
    let device := Device.terminal (mode.level detected) sink
    match plan files i with
    | .error problem => start.report device problem.diagnostic
    | .ok plan => start.renderAll device plan.job plan.diagnostics

end Excerpt.Command
