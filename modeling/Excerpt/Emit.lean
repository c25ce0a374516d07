import Excerpt.Device.Markup
import Excerpt.Device.Terminal
import Excerpt.Document.Outline
import Excerpt.Report

/-! Emitting a diagnostic. Its document is complete before the first call is
made, so nothing is written for options or spans that are refused, nor for
reports that would be too large. Lines and columns are counted in natural numbers
unless other coordinates are asked for; a program counts them in binary64. -/
namespace Excerpt

/-- How a diagnostic is to be shown. -/
structure Options where
  settings : Settings
  theme : ThemeOverrides

def Options.standard : Options := ⟨.empty, .empty⟩

inductive EmitError where
  | config (error : ConfigError)
  | span (error : SpanError)
  /-- The layout, the report, its text or a message cannot be built. -/
  | layout (fault : LayoutFault)
  /-- The device failed. -/
  | write (cause : Fault)
  /-- The device failed with a failure of the emitter, which is passed on. -/
  | passed (message : String)
  deriving DecidableEq, Repr

def EmitError.message : EmitError → String
  | config error => error.message
  | span error => error.message
  | layout fault => fault.message
  | write cause => "failed to write diagnostic: " ++ cause.message
  | passed message => message

/-- Why emitting ends when the device does. A failure for which there is no text as long as its
message is one of that text. -/
def EmitError.ofFault : Fault → EmitError
  | .emission message => .passed message
  | fault =>
    if Text.units16 (EmitError.write fault).message ≤ Text.longest then .write fault
    else .layout (.text .tooLong)

theorem EmitError.ofFault_tooLong : ofFault (.ofText .tooLong) = .write (.ofText .tooLong) := by
  decide

namespace Diagnostic

/-- The first reason why the layouts of a diagnostic cannot be built, with their
positions counted in binary64. -/
def layoutFault? (sources : Sources) (config : Config) (d : Diagnostic) : Option LayoutFault :=
  match (d.resolveLabels sources config : Except SpanError (List (ResolvedLabel Number))) with
  | .error _ => none
  | .ok labels => Excerpt.layoutFault? sources config labels

/-- The layouts of the files a diagnostic points into. Why they cannot be built is said in
binary64, whatever they are counted in, as far as it is a reason there. -/
def layouts (sources : Sources) (config : Config) (d : Diagnostic) (α : Type := Nat) [Add α]
    [Sub α] [Mod α] [Max α] [Min α] [LT α] [DecidableLT α] [LE α] [DecidableLE α] [DecidableEq α]
    [OfNat α 0] [OfNat α 1] [NatCast α] [Coordinate α] : Except EmitError (List (FileLayout α)) :=
  match (d.resolveLabels sources config : Except SpanError (List (ResolvedLabel α))) with
  | .error e => .error (.span e)
  | .ok labels =>
    match layoutLabels? sources config labels with
    | .error fault => .error (.layout ((d.layoutFault? sources config).getD fault))
    | .ok layouts => .ok layouts

def document (sources : Sources) (options : Options) (d : Diagnostic) (α : Type := Nat) [Add α]
    [Sub α] [Mod α] [Max α] [Min α] [LT α] [DecidableLT α] [LE α] [DecidableLE α] [DecidableEq α]
    [OfNat α 0] [OfNat α 1] [NatCast α] [Coordinate α] : Except EmitError Document :=
  match options.settings.resolve with
  | .error e => .error (.config e)
  | .ok config =>
    match d.layouts sources config α with
    | .error e => .error e
    | .ok layouts =>
      let palette : Palette := ⟨options.theme.resolve, d.severity⟩
      match palette.reportFault? d layouts with
      | some fault => .error (.layout fault)
      | none => .ok (palette.report d layouts)

/-- Puts a diagnostic on a device: the state the device is left in, and what
went wrong, if anything. -/
def emit {σ : Type} (device : Device σ) (state : σ) (sources : Sources) (options : Options)
    (d : Diagnostic) (α : Type := Nat) [Add α] [Sub α] [Mod α] [Max α] [Min α] [LT α]
    [DecidableLT α] [LE α] [DecidableLE α] [DecidableEq α] [OfNat α 0] [OfNat α 1] [NatCast α]
    [Coordinate α] : σ × Option EmitError :=
  match d.document sources options α with
  | .error e => (state, some e)
  | .ok document =>
    let (state, fault) := device.render state document
    (state, fault.map EmitError.ofFault)

/-- What becomes of the document of a diagnostic when it is written. -/
def written (sources : Sources) (options : Options) (write : Document → Except TextFault Strip)
    (d : Diagnostic) : Except EmitError Strip :=
  match d.document sources options with
  | .error e => .error e
  | .ok document => (write document).mapError fun fault => .layout (.text fault)

/-- A diagnostic as plain text or with escape sequences. -/
def format (sources : Sources) (options : Options) (color : Bool) (d : Diagnostic) :
    Except EmitError Strip :=
  d.written sources options (if color then Document.ansi else Document.plain)

/-- The outline of the document of a diagnostic. -/
def outline (sources : Sources) (options : Options) (d : Diagnostic) : Except EmitError Strip :=
  d.written sources options Document.outline

end Diagnostic
end Excerpt
