import Excerpt.Layout.Connector
import Excerpt.Layout.Row
import Excerpt.Layout.Shown

/-! The layout of a diagnostic: for each file its labels touch, the source lines
to show with the rows below them and the bars beside them. It says where things
go; colors come later. -/
namespace Excerpt

/-- A row of items below a source line. -/
structure AnnotationRow (α : Type) where
  slots : Slots
  items : List (RowItem α)
  deriving DecidableEq, Repr

/-- A source line with its annotation rows; its text has no tabs left. -/
structure SourceBlock (α : Type) where
  line : α
  text : Strip
  slots : Slots
  rows : List (AnnotationRow α)
  deriving DecidableEq, Repr

inductive Block (α : Type) where
  | source (block : SourceBlock α)
  /-- Stands for lines that are left out. -/
  | elided (slots : Slots)
  deriving DecidableEq, Repr

structure FileLayout (α : Type) where
  file : Number
  name : String
  /-- Start of the first primary label, or of the first label. -/
  location : Position α
  /-- The length of the last line number shown. -/
  gutterWidth : Nat
  connectorWidth : Nat
  blocks : List (Block α)
  deriving DecidableEq, Repr

/-- Labels by file: files in order of their first label, labels in their order. -/
def groupByFile {α : Type} : List (ResolvedLabel α) → List (Number × List (ResolvedLabel α))
  | [] => []
  | l :: labels =>
    (l.file, l :: labels.filter fun other => other.file == l.file) ::
      groupByFile (labels.filter fun other => other.file != l.file)
  termination_by labels => labels.length
  decreasing_by
    simp only [List.length_cons, List.length_unattach]
    exact Nat.lt_succ_of_le (Nat.le_trans (List.length_filter_le _ _) (by simp))

variable {α : Type} [Add α] [Sub α] [Mod α] [Max α] [Min α] [LT α] [DecidableLT α] [LE α]
  [DecidableLE α] [DecidableEq α] [OfNat α 0] [OfNat α 1] [NatCast α] [Coordinate α]

namespace Layout

/-- What the blocks of a file are made from. -/
structure FileLabels (α : Type) where
  sources : Sources
  config : Config
  file : Number
  labels : List (ResolvedLabel α)
  /-- Where the bars of the labels are. -/
  columns : Connectors α

namespace FileLabels

/-- A bar passes a source line strictly between the ends of its label. -/
def slotsAt (f : FileLabels α) (line : α) : Slots :=
  f.columns.slots f.labels fun l => l.start.line < line && line < l.stop.line

/-- A bar passes a gap between two shown lines from one of its sides to the other. -/
def slotsBetween (f : FileLabels α) (before after : α) : Slots :=
  f.columns.slots f.labels fun l => l.start.line ≤ before && after ≤ l.stop.line

def tabWidth (f : FileLabels α) : α := f.config.tabWidth

def textAt (f : FileLabels α) (line : α) : String :=
  f.sources.line f.file (Coordinate.toNumber line)

/-- The rows of markers of a line with the given text. -/
def markersAt (f : FileLabels α) (line : α) (text : String) : List (List (Marker α)) :=
  markerRows (markersOn f.labels line (1 + Columns.width f.tabWidth text))

def sourceBlock (f : FileLabels α) (line : α) : SourceBlock α :=
  let text := f.textAt line
  let slots := f.slotsAt line
  { line
    text := Columns.expand f.tabWidth text
    slots
    rows := (f.markersAt line text).flatMap annotate |>.map fun items => ⟨slots, items⟩ }

/-- The blocks of some lines, the first of which comes after `before` if any
line does; a gap in their numbers is marked by one elided block. -/
def blocksAfter (f : FileLabels α) (before : Option α) : List α → List (Block α)
  | [] => []
  | line :: lines =>
    let gap :=
      match before with
      | some before => if before + 1 < line then [.elided (f.slotsBetween before line)] else []
      | none => []
    gap ++ .source (f.sourceBlock line) :: f.blocksAfter (some line) lines

/-- The number of lines of the file; one that is not known has none. -/
def lineCount (f : FileLabels α) : α := ((f.sources.lineCount f.file).getD 0 : Nat)

def shown (f : FileLabels α) : List α := shownLines f.config f.lineCount f.labels

/-- Why the block of a line cannot be built: its markers are written before its
text. -/
def faultAt? (f : FileLabels α) (line : α) : Option TextFault :=
  let text := f.textAt line
  ((f.markersAt line text).flatten.findSome? Marker.fault?).or (Columns.fault? f.tabWidth text)

/-- Why the file cannot be laid out: its connectors are counted before its lines. -/
def fault? (f : FileLabels α) : Option LayoutFault :=
  if mostAtOnce < f.columns.length then some .tooManyAtOnce
  else
    match shownFault? f.config f.lineCount f.labels with
    | some fault => some fault
    | none => (f.shown.findSome? f.faultAt?).map .text

def location (f : FileLabels α) : Position α :=
  match (f.labels.find? fun l => l.style == .primary).or f.labels.head? with
  | some l => l.start
  | none => ⟨1, 1⟩

def layout (f : FileLabels α) : FileLayout α where
  file := f.file
  name := (f.sources.name f.file).getD f.file.toText
  location := f.location
  gutterWidth := (Coordinate.toText (f.shown.getLast?.getD 1)).length
  connectorWidth := f.columns.width
  blocks := f.blocksAfter none f.shown

end FileLabels
end Layout

/-- The labels by file, with all that their layouts need. -/
def fileLabels (sources : Sources) (config : Config) (labels : List (ResolvedLabel α)) :
    List (Layout.FileLabels α) :=
  (groupByFile labels).map fun (file, labels) =>
    ⟨sources, config, file, labels, connectors labels⟩

/-- The layout of every file that some labels touch, in order of first labels. -/
def layoutLabels (sources : Sources) (config : Config) (labels : List (ResolvedLabel α)) :
    List (FileLayout α) :=
  (fileLabels sources config labels).map Layout.FileLabels.layout

/-- The first reason why a layout cannot be built. -/
def layoutFault? (sources : Sources) (config : Config) (labels : List (ResolvedLabel α)) :
    Option LayoutFault :=
  (fileLabels sources config labels).findSome? Layout.FileLabels.fault?

/-- The layouts, if all of them can be built. -/
def layoutLabels? (sources : Sources) (config : Config) (labels : List (ResolvedLabel α)) :
    Except LayoutFault (List (FileLayout α)) :=
  match layoutFault? sources config labels with
  | some fault => .error fault
  | none => .ok (layoutLabels sources config labels)

end Excerpt
