import Excerpt.Input
import Excerpt.Json.Reader

/-! The shape of an input file. Fields are looked at in a fixed order, and the
first one that is wrong is reported; members of other names are ignored. -/
namespace Excerpt.Schema

/-- A reader of the value at a path. -/
abbrev Reader (α : Type) := List Step → Json → Except InputError α

def string : Reader String
  | _, .text value => .ok value
  | path, _ => .error ⟨path, .expectedString⟩

def offset : Reader Nat
  | path, .number value =>
    match value.toNat? with
    | some n => .ok n
    | none => .error ⟨path, .expectedOffset⟩
  | path, _ => .error ⟨path, .expectedOffset⟩

def labelStyle : Reader LabelStyle
  | path, .text value =>
    if value = "primary" then .ok .primary
    else if value = "secondary" then .ok .secondary
    else .error ⟨path, .expectedLabelStyle⟩
  | path, _ => .error ⟨path, .expectedLabelStyle⟩

def severity : Reader Severity
  | path, .text value =>
    match Severity.ofName? value with
    | some severity => .ok severity
    | none => .error ⟨path, .unknownSeverity value⟩
  | path, _ => .error ⟨path, .expectedString⟩

/-- The items of a list in their order, from the one with the given index on. -/
def items {α : Type} (read : Reader α) (path : List Step) (index : Nat) :
    List Json → Except InputError (List α)
  | [] => .ok []
  | item :: rest => do
    let first ← read (path ++ [.index index]) item
    let others ← items read path (index + 1) rest
    return first :: others

def array {α : Type} (read : Reader α) : Reader (List α)
  | path, .list values => items read path 0 values
  | path, _ => .error ⟨path, .expectedArray⟩

/-- A field that has to be there. -/
def required {α : Type} (members : List (String × Json)) (path : List Step) (name : String)
    (missing : InputFault) (read : Reader α) : Except InputError α :=
  match Json.member? members name with
  | some value => read (path ++ [.key name]) value
  | none => .error ⟨path ++ [.key name], missing⟩

/-- A field that may be left out. -/
def optional {α : Type} (members : List (String × Json)) (path : List Step) (name : String)
    (read : Reader α) : Except InputError (Option α) :=
  match Json.member? members name with
  | some value => some <$> read (path ++ [.key name]) value
  | none => .ok none

def label : Reader LabelInput
  | path, .object members => do
    let stop ← required members path "end" .expectedOffset offset
    let file ← required members path "file" .expectedString string
    let message ← optional members path "message" string
    let start ← required members path "start" .expectedOffset offset
    let style ← optional members path "style" labelStyle
    return { style := style.getD .primary, file, start, stop, message }
  | path, _ => .error ⟨path, .expectedObject⟩

def diagnostic : Reader DiagnosticInput
  | path, .object members => do
    let code ← optional members path "code" string
    let labels ← optional members path "labels" (array label)
    let message ← required members path "message" .expectedString string
    let notes ← optional members path "notes" (array string)
    let severity ← required members path "severity" .expectedString severity
    return { severity, code, message, labels := labels.getD [], notes := notes.getD [] }
  | path, _ => .error ⟨path, .expectedObject⟩

/-- The diagnostics of a whole document. -/
def document : Json → Except InputError (List DiagnosticInput)
  | .object members => required members [] "diagnostics" .expectedArray (array diagnostic)
  | _ => .error ⟨[], .expectedDiagnostics⟩

end Excerpt.Schema

namespace Excerpt

/-- The diagnostics a text describes. -/
def parseInput (text : String) : Except InputError (List DiagnosticInput) :=
  match Json.ofText text with
  | .ok value => Schema.document value
  | .error _ => .error ⟨[], .notJson⟩

end Excerpt
