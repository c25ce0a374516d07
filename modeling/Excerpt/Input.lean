import Excerpt.Decimal.Text
import Excerpt.Diagnostic

/-! Input: diagnostics as a file describes them. Labels name their files by
paths, and offsets are natural numbers. -/
namespace Excerpt

structure LabelInput where
  style : LabelStyle
  file : String
  start : Nat
  stop : Nat
  message : Option String
  deriving DecidableEq, Repr

structure DiagnosticInput where
  severity : Severity
  code : Option String
  message : String
  labels : List LabelInput
  notes : List String
  deriving DecidableEq, Repr

/-- A step from a value to a part of it. Lists are stepped into by an index; other
numbers lead nowhere, but can be shown. -/
inductive Step where
  | key (name : String)
  | index (i : Nat)
  | number (value : Number)
  deriving DecidableEq, Repr

def Step.toText : Step → String
  | key name => "." ++ name
  | index i => "[" ++ Decimal.digits i ++ "]"
  | number value => "[" ++ value.toText ++ "]"

/-- Where a value is, such as `$.diagnostics[0].labels[1].start`. -/
def issuePath (steps : List Step) : String := "$" ++ String.join (steps.map Step.toText)

inductive InputFault where
  /-- The text is not JSON. What an engine says about that is left open. -/
  | notJson
  | expectedString
  | expectedOffset
  | expectedLabelStyle
  | expectedArray
  | expectedObject
  | expectedDiagnostics
  | unknownSeverity (name : String)
  | notLoaded (file : String)
  deriving DecidableEq, Repr

def InputFault.reason : InputFault → String
  -- A placeholder for the message of an engine, on which no result rests.
  | notJson => "<json syntax error>"
  | expectedString => "expected a string"
  | expectedOffset => "expected a non-negative integer"
  | expectedLabelStyle => "expected \"primary\" or \"secondary\""
  | expectedArray => "expected an array"
  | expectedObject => "expected an object"
  | expectedDiagnostics => "expected an object with a \"diagnostics\" array"
  | unknownSeverity name => "unknown severity \"" ++ name ++ "\""
  | notLoaded file => "source \"" ++ file ++ "\" was not loaded"

/-- What is wrong with an input, and where. -/
structure InputError where
  path : List Step
  fault : InputFault
  deriving DecidableEq, Repr

def InputError.message (e : InputError) : String := issuePath e.path ++ ": " ++ e.fault.reason

end Excerpt
