import Excerpt.Command.Problem
import Excerpt.Emit
import Excerpt.Source.Store

/-! Sessions: what a run leaves behind on its device, in its log and as its exit
code. A problem is put on the device, and into the log if the device fails. -/
namespace Excerpt

inductive LogEntry where
  | info (text : Strip)
  | error (text : String)
  deriving DecidableEq, Repr

structure Session (σ : Type) where
  device : σ
  log : List LogEntry
  exitCode : Option Nat

namespace Session

variable {σ : Type}

def start (state : σ) : Session σ := ⟨state, [], none⟩

def add (s : Session σ) (entry : LogEntry) : Session σ := { s with log := s.log ++ [entry] }

def fail (s : Session σ) : Session σ := { s with exitCode := some 1 }

/-- Emits a diagnostic of the command itself. -/
def report (device : Device σ) (s : Session σ) (d : Diagnostic) : Session σ :=
  let (state, error) := d.emit device s.device Store.empty.sources .standard
  let s := { s.fail with device := state }
  match error with
  | none => s
  | some e => (s.add (.error d.summary)).add (.error ("while reporting: " ++ e.message))

/-- What to show, and whether the outlines of the documents are logged. -/
structure Job where
  sources : Sources
  options : Options
  debug : Bool

/-- Emits a diagnostic, behind its outline in the log if outlines are logged.
Without an outline it is not emitted. -/
def attempt (device : Device σ) (job : Job) (s : Session σ) (d : Diagnostic) :
    Session σ × Option EmitError :=
  let outline? : Except EmitError (Option Strip) :=
    if job.debug then some <$> d.outline job.sources job.options else .ok none
  match outline? with
  | .error e => (s, some e)
  | .ok outline? =>
    let s := outline?.elim s fun outline => s.add (.info outline)
    let (state, error) := d.emit device s.device job.sources job.options
    ({ s with device := state }, error)

/-- Shows one diagnostic of the input; the other result tells whether it failed. -/
def render (device : Device σ) (job : Job) (index : Nat) (s : Session σ) (d : Diagnostic) :
    Session σ × Bool :=
  match s.attempt device job d with
  | (s, none) => (s, false)
  | (s, some (.write cause)) => (s.fail.add (.error (EmitError.write cause).message), true)
  | (s, some e) =>
    (s.report device (Problem.render ((index + 1 : Nat) : Number) e.message).diagnostic, true)

/-- Emits diagnostics from the given index on, and counts those that failed. -/
def renderFrom (device : Device σ) (job : Job) (index : Nat) (s : Session σ) :
    List Diagnostic → Session σ × Nat
  | [] => (s, 0)
  | d :: ds =>
    let (s, failed) := s.render device job index d
    let (s, failures) := renderFrom device job (index + 1) s ds
    (s, if failed then failures + 1 else failures)

/-- Emits all diagnostics of the input. -/
def renderAll (device : Device σ) (job : Job) (s : Session σ) (ds : List Diagnostic) : Session σ :=
  let (s, failures) := s.renderFrom device job 0 ds
  if failures = 0 then s
  else
    s.fail.add (.error (Decimal.digits failures ++ " of " ++ Decimal.digits ds.length ++
      " diagnostics could not be rendered"))

end Session
end Excerpt
