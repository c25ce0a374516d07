import Excerpt.Entries
import Excerpt.Input
import Excerpt.Source.Store

/-! Loading an input: its source files are put into a store, and its labels
point at them by id. -/
namespace Excerpt

/-- Source texts by path, each path once. -/
abbrev SourceTexts := Entries String String

/-- The files that labels name, each once, in order of first use. -/
def sourcePaths (inputs : List DiagnosticInput) : List String :=
  (inputs.flatMap fun input => input.labels.map LabelInput.file).eraseDups

/-- The id a path gets in the store of some sources. -/
def SourceTexts.id? (sources : SourceTexts) (path : String) : Option Nat :=
  sources.findIdx? fun entry => entry.1 == path

namespace Input

def path (diagnostic label : Nat) : List Step :=
  [.key "diagnostics", .index diagnostic, .key "labels", .index label, .key "file"]

def label (sources : SourceTexts) (index labelIndex : Nat) (input : LabelInput) :
    Except InputError Label :=
  match SourceTexts.id? sources input.file with
  | none => .error ⟨path index labelIndex, .notLoaded input.file⟩
  | some id => .ok ⟨input.style, ⟨id, input.start, input.stop⟩, input.message⟩

def diagnostic (sources : SourceTexts) (index : Nat) (input : DiagnosticInput) :
    Except InputError Diagnostic := do
  let labels ← input.labels.zipIdx.mapM fun (l, labelIndex) => label sources index labelIndex l
  return {
    severity := input.severity
    code := input.code
    message := input.message
    labels
    notes := input.notes }

/-- The store of some sources and the diagnostics that point into it, or the
first label whose file is missing. -/
def load (inputs : List DiagnosticInput) (sources : SourceTexts) :
    Except InputError (Store × List Diagnostic) := do
  let diagnostics ← inputs.zipIdx.mapM fun (input, index) => diagnostic sources index input
  return (Store.ofList sources, diagnostics)

end Input
end Excerpt
