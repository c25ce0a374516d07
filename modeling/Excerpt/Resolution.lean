import Excerpt.Config
import Excerpt.Diagnostic
import Excerpt.Source
import Excerpt.Text.Columns

/-! Labels at lines and columns. A span is never moved to make it fit: one that
does not fit its file is refused with a reason. -/
namespace Excerpt

/-- A line and a display column, both counted from 1. -/
structure Position (α : Type) where
  line : α
  column : α
  deriving DecidableEq, Repr

/-- A label whose span has been found in its file. `order` is the place of the
label in its diagnostic. -/
structure ResolvedLabel (α : Type) where
  style : LabelStyle
  message : Option String
  file : Number
  start : Position α
  stop : Position α
  order : α
  deriving DecidableEq, Repr

def ResolvedLabel.isMultiline {α : Type} [DecidableEq α] (l : ResolvedLabel α) : Bool :=
  l.start.line != l.stop.line

inductive SpanFault where
  | unknownFile
  | reversed
  | badOffset (offset : Number)
  | missingLine (line : Nat)
  deriving DecidableEq, Repr

def SpanFault.reason : SpanFault → String
  | unknownFile => "unknown file"
  | reversed => "start is after end"
  | badOffset offset =>
    "offset " ++ offset.toText ++ " is outside the source or inside a character"
  | missingLine line => "line " ++ Decimal.digits line ++ " is not available"

structure SpanError where
  span : Span
  fault : SpanFault
  deriving DecidableEq, Repr

def SpanError.message (e : SpanError) : String :=
  "invalid span " ++ e.span.start.toText ++ ".." ++ e.span.stop.toText ++ " in file " ++
    e.span.file.toText ++ ": " ++ e.fault.reason

section

variable {α : Type} [Add α] [Sub α] [Mod α] [OfNat α 0] [OfNat α 1] [NatCast α] [Coordinate α]

namespace Span

/-- The position of an offset: its column follows from the text of its line
before it. -/
def position (sources : Sources) (config : Config) (span : Span) (offset : Number) :
    Except SpanError (Position α) :=
  match sources.location span.file offset with
  | none => .error ⟨span, .badOffset offset⟩
  | some location =>
    let before? := (sources.lineRange span.file location.line).bind fun range =>
      sources.slice span.file range.start ((range.start + location.byteColumn : Nat) : Number)
    match before? with
    | none => .error ⟨span, .missingLine location.line⟩
    | some before => .ok ⟨location.line, 1 + Columns.width (config.tabWidth : α) before⟩

/-- The positions of both ends of a span. -/
def resolve (sources : Sources) (config : Config) (span : Span) :
    Except SpanError (Position α × Position α) := do
  if sources.name span.file = none then throw ⟨span, .unknownFile⟩
  if span.stop.less span.start then throw ⟨span, .reversed⟩
  let start ← span.position sources config span.start
  let stop ← span.position sources config span.stop
  return (start, stop)

end Span

/-- An empty message counts as none. -/
def Label.resolve (sources : Sources) (config : Config) (label : Label) (order : Nat) :
    Except SpanError (ResolvedLabel α) := do
  let (start, stop) ← label.span.resolve sources config
  return {
    style := label.style
    message := label.message.filter (· != "")
    file := label.span.file
    start, stop
    order := order }

/-- All labels of a diagnostic, or the reason why the first bad span is refused. -/
def Diagnostic.resolveLabels (sources : Sources) (config : Config) (d : Diagnostic) :
    Except SpanError (List (ResolvedLabel α)) :=
  d.labels.zipIdx.mapM fun (label, order) => label.resolve sources config order

end

end Excerpt
