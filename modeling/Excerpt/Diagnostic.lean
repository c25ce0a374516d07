import Excerpt.Number

/-! Diagnostics: a message of some severity with labels on source text and
notes. -/
namespace Excerpt

/-- From the most severe to the least severe. -/
inductive Severity where
  | bug | error | warning | note | help
  deriving DecidableEq, Repr

namespace Severity

def all : List Severity := [bug, error, warning, note, help]

/-- The word shown in a header. -/
def name : Severity → String
  | bug => "bug"
  | error => "error"
  | warning => "warning"
  | note => "note"
  | help => "help"

def ofName? (name : String) : Option Severity := all.find? (·.name == name)

/-- The place in the list of all severities. -/
def rank : Severity → Nat
  | bug => 0
  | error => 1
  | warning => 2
  | note => 3
  | help => 4

def ofRank? (n : Nat) : Option Severity := all[n]?

/-- Positive when `a` is more severe than `b`. -/
def compare (a b : Severity) : Int := (b.rank : Int) - a.rank

theorem ofName?_name (s : Severity) : ofName? s.name = some s := by
  cases s <;> decide +kernel

end Severity

/-- Primary labels mark the cause of a diagnostic, secondary ones add context. -/
inductive LabelStyle where
  | primary | secondary
  deriving DecidableEq, Repr

namespace LabelStyle

/-- Primary labels come before secondary ones. -/
def rank : LabelStyle → Nat
  | primary => 0
  | secondary => 1

def ofRank? (n : Nat) : Option LabelStyle := [primary, secondary][n]?

end LabelStyle

/-- The bytes of a file from `start` up to but not including `stop`, as they
were given: nothing is promised about them yet. -/
structure Span where
  file : Number
  start : Number
  stop : Number
  deriving DecidableEq, Repr

structure Label where
  style : LabelStyle
  span : Span
  /-- Shown beside the underline; may take several lines. -/
  message : Option String
  deriving DecidableEq, Repr

structure Diagnostic where
  severity : Severity
  /-- Shown in brackets after the severity. -/
  code : Option String
  message : String
  labels : List Label
  /-- Shown after the source text. -/
  notes : List String
  deriving DecidableEq, Repr

namespace Label

def primary (span : Span) (message : Option String) : Label := ⟨.primary, span, message⟩

def secondary (span : Span) (message : Option String) : Label := ⟨.secondary, span, message⟩

end Label

namespace Diagnostic

/-- A diagnostic that has nothing but a message. -/
def new (severity : Severity) (message : String) : Diagnostic := ⟨severity, none, message, [], []⟩

def withCode (d : Diagnostic) (code : String) : Diagnostic := { d with code := some code }

def withLabels (d : Diagnostic) (labels : List Label) : Diagnostic :=
  { d with labels := d.labels ++ labels }

def withNotes (d : Diagnostic) (notes : List String) : Diagnostic :=
  { d with notes := d.notes ++ notes }

end Diagnostic
end Excerpt
