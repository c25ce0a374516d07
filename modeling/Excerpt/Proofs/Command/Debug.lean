import Excerpt.Command.Render
import Excerpt.Proofs.Command.Outcome

/-! Logging outlines changes nothing but the log. Wherever every report has an outline, a run
with outlines leaves the same behind as one without, on any device; it only logs more. -/
namespace Excerpt

/-- Whether an entry of the log tells of a failure. -/
def LogEntry.isError : LogEntry → Bool
  | .info _ => false
  | .error _ => true

namespace Session

/-- Two runs that differ at most in what they tell without having failed. -/
structure Alike {σ : Type} (s s' : Session σ) : Prop where
  device : s.device = s'.device
  exitCode : s.exitCode = s'.exitCode
  errors : s.log.filter LogEntry.isError = s'.log.filter LogEntry.isError

variable {σ : Type} {s s' : Session σ}

theorem Alike.refl (s : Session σ) : s.Alike s := ⟨rfl, rfl, rfl⟩

theorem Alike.add (h : s.Alike s') (entry : LogEntry) : (s.add entry).Alike (s'.add entry) where
  device := h.device
  exitCode := h.exitCode
  errors := by
    show (s.log ++ [entry]).filter _ = (s'.log ++ [entry]).filter _
    rw [List.filter_append, List.filter_append, h.errors]

theorem Alike.fail (h : s.Alike s') : s.fail.Alike s'.fail := ⟨h.device, rfl, h.errors⟩

theorem Alike.report (h : s.Alike s') (device : Device σ) (d : Diagnostic) :
    (s.report device d).Alike (s'.report device d) := by
  have moved (state : σ) : Alike { s.fail with device := state } { s'.fail with device := state } :=
    ⟨rfl, rfl, h.errors⟩
  rw [Session.report, Session.report, h.device]
  dsimp only
  split
  · exact moved _
  · exact ((moved _).add _).add _

/-- Every report that can be put together has an outline. -/
def Outlined (job : Job) (ds : List Diagnostic) : Prop :=
  ∀ d ∈ ds, ∀ document, d.document job.sources job.options = .ok document →
    ∃ outline, document.outline = .ok outline

/-- The same job with outlines or without. -/
def Job.logging (job : Job) (debug : Bool) : Job := { job with debug }

variable {job : Job} {d : Diagnostic}

/-- What is logged of a document tells of no failure. -/
theorem Logs.quiet {document : Document} {log : List LogEntry} (h : Logs job document log) :
    log.filter LogEntry.isError = [] := by
  cases h <;> rfl

theorem attempt_of_outlined (job : Job) (device : Device σ) (s : Session σ) {document : Document}
    (made : d.document job.sources job.options = .ok document)
    (outlined : ∃ outline, document.outline = .ok outline) :
    ∃ log, log.filter LogEntry.isError = [] ∧ s.attempt device job d =
      let emitted := d.emit device s.device job.sources job.options
      ({ s with device := emitted.1, log := s.log ++ log }, emitted.2) := by
  obtain ⟨outline, own⟩ := outlined
  rcases attempt_of_document device s made with ⟨fault, _, large, _⟩ | ⟨log, logs, attempted⟩
  · rw [own] at large
    cases large
  · exact ⟨log, logs.quiet, attempted⟩

theorem Alike.attempt (h : s.Alike s') (device : Device σ)
    (outlined : ∀ document, d.document job.sources job.options = .ok document →
      ∃ outline, document.outline = .ok outline) :
    (s.attempt device (job.logging true) d).1.Alike (s'.attempt device (job.logging false) d).1 ∧
      (s.attempt device (job.logging true) d).2 = (s'.attempt device (job.logging false) d).2 := by
  cases made : d.document job.sources job.options with
  | error e =>
    have loud : s.attempt device (job.logging true) d = (s, some e) :=
      attempt_of_error device s made
    have silent : s'.attempt device (job.logging false) d = (s', some e) :=
      attempt_of_error device s' made
    rw [loud, silent]
    exact ⟨h, rfl⟩
  | ok document =>
    obtain ⟨log, quiet, loud⟩ :=
      attempt_of_outlined (job.logging true) device s made (outlined document made)
    obtain ⟨log', quiet', silent⟩ :=
      attempt_of_outlined (job.logging false) device s' made (outlined document made)
    rw [loud, silent, h.device]
    refine ⟨⟨rfl, h.exitCode, ?_⟩, rfl⟩
    rw [List.filter_append, List.filter_append, quiet, quiet', h.errors]

theorem Alike.render (h : s.Alike s') (device : Device σ) (index : Nat)
    (outlined : ∀ document, d.document job.sources job.options = .ok document →
      ∃ outline, document.outline = .ok outline) :
    (s.render device (job.logging true) index d).1.Alike
        (s'.render device (job.logging false) index d).1 ∧
      (s.render device (job.logging true) index d).2 =
        (s'.render device (job.logging false) index d).2 := by
  obtain ⟨alike, same⟩ := h.attempt device outlined
  rw [Session.render, Session.render]
  cases loud : s.attempt device (job.logging true) d with
  | mk next error =>
    cases silent : s'.attempt device (job.logging false) d with
    | mk next' error' =>
      rw [loud, silent] at alike same
      cases same
      cases error with
      | none => exact ⟨alike, rfl⟩
      | some e =>
        cases e with
        | write cause => exact ⟨alike.fail.add _, rfl⟩
        | config | span | layout | passed => exact ⟨alike.report device _, rfl⟩

theorem Alike.renderFrom (h : s.Alike s') (device : Device σ) (index : Nat) {ds : List Diagnostic}
    (outlined : Outlined job ds) :
    (s.renderFrom device (job.logging true) index ds).1.Alike
        (s'.renderFrom device (job.logging false) index ds).1 ∧
      (s.renderFrom device (job.logging true) index ds).2 =
        (s'.renderFrom device (job.logging false) index ds).2 := by
  induction ds generalizing s s' index with
  | nil => exact ⟨h, rfl⟩
  | cons d ds ih =>
    obtain ⟨own, later⟩ := List.forall_mem_cons.mp outlined
    obtain ⟨alike, same⟩ := h.render device index own
    obtain ⟨alike_later, same_later⟩ := ih alike (index + 1) later
    refine ⟨alike_later, ?_⟩
    rw [Session.renderFrom, Session.renderFrom]
    dsimp only
    rw [same, same_later]

theorem Alike.renderAll (h : s.Alike s') (device : Device σ) {ds : List Diagnostic}
    (outlined : Outlined job ds) :
    (s.renderAll device (job.logging true) ds).Alike
      (s'.renderAll device (job.logging false) ds) := by
  obtain ⟨alike, same⟩ := h.renderFrom device 0 outlined
  rw [Session.renderAll, Session.renderAll]
  dsimp only
  rw [same]
  split
  · exact alike
  · exact alike.fail.add _

end Session

namespace Command

/-- The same call with outlines or without. -/
def logging (i : Invocation) (debug : Bool) : Invocation := { i with debug }

theorem plan_logging (files : FileSystem) (i : Invocation) (debug : Bool) :
    plan files (logging i debug) =
      (plan files i).map fun p => ⟨p.job.logging debug, p.diagnostics⟩ := by
  have checked : checkOptions (logging i debug) = checkOptions i := rfl
  have read : readInput files (logging i debug) = readInput files i := rfl
  have found (paths : List String) :
      readSources files (logging i debug) paths = readSources files i paths := by
    induction paths with
    | nil => rfl
    | cons path paths ih =>
      rw [readSources, readSources, ih]
      rfl
  unfold plan
  rw [checked, read]
  cases checkOptions i with
  | error problem => rfl
  | ok options =>
    cases readInput files i with
    | error problem => rfl
    | ok inputs =>
      simp only [bind, Except.bind, found]
      cases readSources files i (sourcePaths inputs) with
      | error problem => rfl
      | ok sources =>
        dsimp only
        cases Input.load inputs sources <;> rfl

/-- A call leaves the same behind with outlines and without, wherever there are outlines. -/
theorem run_logging {σ : Type} (sink : Sink σ) (state : σ) (detected : ColorLevel)
    (files : FileSystem) (i : Invocation)
    (outlined : ∀ p, plan files i = .ok p → Session.Outlined p.job p.diagnostics) :
    (run sink state detected files (logging i true)).Alike
      (run sink state detected files (logging i false)) := by
  have color (debug : Bool) : (logging i debug).color = i.color := rfl
  unfold run
  rw [color, color, plan_logging, plan_logging]
  cases ColorMode.ofName? i.color with
  | none => exact .refl _
  | some mode =>
    cases planned : plan files i with
    | error problem => exact .refl _
    | ok p => exact (Session.Alike.refl _).renderAll _ (outlined p planned)

end Command
end Excerpt
