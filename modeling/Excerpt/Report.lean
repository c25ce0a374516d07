import Excerpt.Layout
import Excerpt.Segment
import Excerpt.Theme

/-! Reports: the document of a diagnostic, from its header and the layouts of
its files. -/
namespace Excerpt

variable {α : Type} [Add α] [Sub α] [LT α] [DecidableLT α] [OfNat α 1] [NatCast α] [Coordinate α]

/-- Where an item starts behind a cursor. One whose column has been passed follows at once. -/
def RowItem.startFrom (cursor : α) (item : RowItem α) : α :=
  if cursor < item.column then item.column else cursor

/-- Why a gap in front of one of some items cannot be written. -/
def RowItem.gapFault? (cursor : α) : List (RowItem α) → Option TextFault
  | [] => none
  | item :: items =>
    (if cursor < item.column then Coordinate.fault? (item.column - cursor) else none).or
      (gapFault? (item.startFrom cursor + (item.text.length : α)) items)

def Block.gapFault? : Block α → Option TextFault
  | .source block => block.rows.findSome? fun row => RowItem.gapFault? 1 row.items
  | .elided _ => none

/-- The theme and the severity that style one diagnostic. -/
structure Palette where
  theme : Theme
  severity : Severity

namespace Palette

def gutter (p : Palette) (text : Strip) : Segment := ⟨p.theme.gutter.effective?, text⟩

/-- A part of a label, in the color of the label. -/
def label (p : Palette) (style : LabelStyle) (role : Role) (text : Strip) : Segment :=
  let base :=
    match role with
    | .message => p.theme.message
    | .marker | .pointer => p.theme.marker
  ⟨some { base with foreground := some (p.theme.labelColor p.severity style) }, text⟩

/-- One cell per connector column and a space; nothing if there are no columns. -/
def connectors (p : Palette) (slots : Slots) : List Segment :=
  if slots.isEmpty then []
  else
    slots.map (fun slot =>
      match slot with
      | none => .plain " "
      | some style => p.label style .pointer (.repeated 1 pointerGlyph)) ++
    [.plain " "]

/-- The severity of a diagnostic, and its code if it has one. -/
def heading (d : Diagnostic) : String :=
  d.severity.name ++ d.code.elim "" fun code => "[" ++ code ++ "]"

def header (p : Palette) (d : Diagnostic) : Document :=
  let word : Style :=
    { Style.empty with bold := some true, foreground := some (p.theme.severity d.severity) }
  Document.trimmedLine [
    ⟨some word, heading d⟩,
    ⟨p.theme.header.effective?, ": " ++ d.message⟩]

def blankGutter (p : Palette) (width : Nat) : Document :=
  Document.trimmedLine [p.gutter (Text.spaces width ++ " |")]

/-- The items of a row at their columns, from `cursor` on. An item whose column
has been passed follows at once. -/
def itemsFrom (p : Palette) (cursor : α) : List (RowItem α) → List Segment
  | [] => []
  | item :: items =>
    let gap :=
      if cursor < item.column then
        [.plain (.repeated (Coordinate.toCount (item.column - cursor)) ' ')]
      else []
    gap ++ p.label item.style item.role item.text ::
      p.itemsFrom (item.startFrom cursor + (item.text.length : α)) items

def annotationRow (p : Palette) (width : Nat) (row : AnnotationRow α) : Document :=
  Document.trimmedLine (
    p.gutter (Text.spaces width ++ " |") :: .plain " " ::
      (p.connectors row.slots ++ p.itemsFrom 1 row.items))

/-- The row of a source line, which is shown as it is. -/
def sourceRow (p : Palette) (width : Nat) (block : SourceBlock α) : Document :=
  let segments :=
    p.gutter (Text.padStart width (Coordinate.toText block.line) ++ " |") :: .plain " " ::
      (p.connectors block.slots ++ [.plain block.text])
  if block.text.isEmpty then Document.trimmedLine segments else Document.verbatimLine segments

def block (p : Palette) (width : Nat) : Block α → Document
  | .elided slots =>
    Document.trimmedLine (p.gutter (Text.spaces width ++ " :") :: .plain " " :: p.connectors slots)
  | .source block => p.sourceRow width block ++ block.rows.flatMap (p.annotationRow width)

/-- Where a file is. -/
def place (layout : FileLayout α) : String :=
  layout.name ++ ":" ++ Coordinate.toText layout.location.line ++ ":" ++
    Coordinate.toText layout.location.column

/-- A file: where it is, a blank row, and its blocks. -/
def file (p : Palette) (layout : FileLayout α) : Document :=
  Document.trimmedLine [
    .plain (Text.spaces layout.gutterWidth),
    p.gutter "-->",
    .plain " ",
    ⟨p.theme.location.bind Style.effective?, place layout⟩] ++
  p.blankGutter layout.gutterWidth ++
  layout.blocks.flatMap (p.block layout.gutterWidth)

/-- The lines of a note, the first of which is marked. -/
def note (p : Palette) (width : Nat) (note : String) : Document :=
  (Text.lines note).zipIdx.flatMap fun (part, index) =>
    Document.trimmedLine [
      if index = 0 then p.gutter (Text.spaces width ++ " =")
      else .plain (Text.spaces width ++ "  "),
      .plain " ",
      ⟨p.theme.note.bind Style.effective?, part⟩]

/-- The gutter of the notes is as wide as the widest one above them. -/
def notesWidth (layouts : List (FileLayout α)) : Nat :=
  layouts.foldl (fun width layout => max width layout.gutterWidth) 0

/-- All notes, behind a blank row if there is source text above them. -/
def notes (p : Palette) (layouts : List (FileLayout α)) (notes : List String) : Document :=
  let width := notesWidth layouts
  if notes.isEmpty then []
  else (if layouts.isEmpty then [] else p.blankGutter width) ++ notes.flatMap (p.note width)

def report (p : Palette) (d : Diagnostic) (layouts : List (FileLayout α)) : Document :=
  p.header d ++ layouts.flatMap p.file ++ p.notes layouts d.notes

/-- Why some things cannot be handed over at once. -/
def amountFault? (count : Nat) : Option LayoutFault :=
  if mostAtOnce < count then some .tooManyAtOnce else none

/-- Why the header cannot be put together, of which the spaces at its end are trimmed later. -/
def headerFault? (d : Diagnostic) : Option LayoutFault :=
  if Text.units16 (heading d) ≤ Text.longest ∧ Text.units16 (": " ++ d.message) ≤ Text.longest then
    none
  else some (.text .tooLong)

/-- Why the part about a file cannot be put together: its place is written before its rows. -/
def fileFault? (p : Palette) (layout : FileLayout α) : Option LayoutFault :=
  if Text.longest < Text.units16 (place layout) then some (.text .tooLong)
  else
    ((layout.blocks.findSome? Block.gapFault?).map .text).or
      (amountFault? (p.file layout).length)

/-- Why the notes cannot be put together: the widths above them are compared before that. -/
def notesFault? (p : Palette) (layouts : List (FileLayout α)) (notes : List String) :
    Option LayoutFault :=
  if notes.isEmpty then none
  else
    (amountFault? layouts.length).or
      (amountFault? (notes.flatMap (p.note (notesWidth layouts))).length)

/-- Why a report cannot be put together, from its header to its notes. -/
def reportFault? (p : Palette) (d : Diagnostic) (layouts : List (FileLayout α)) :
    Option LayoutFault :=
  (headerFault? d).or ((layouts.findSome? p.fileFault?).or (p.notesFault? layouts d.notes))

end Palette
end Excerpt
