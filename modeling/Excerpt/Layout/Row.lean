import Excerpt.Layout.Marker
import Excerpt.Text.Strip

/-! Annotation rows: the markers of one row with their messages. The message of
the last marker stands behind it. So does the message of an earlier one if it is
a single line that ends before the next marker starts; else it hangs below its
marker, and pointers lead down to it. -/
namespace Excerpt

inductive Role where
  | marker | message | pointer
  deriving DecidableEq, Repr

/-- Text at a display column of an annotation row; columns count from 1. -/
structure RowItem (α : Type) where
  column : α
  role : Role
  style : LabelStyle
  text : Strip
  deriving DecidableEq, Repr

def LabelStyle.glyph : LabelStyle → Char
  | .primary => '^'
  | .secondary => '-'

def pointerGlyph : Char := '|'

section

variable {α : Type} [Add α] [Sub α] [LT α] [DecidableLT α] [OfNat α 1] [NatCast α] [Coordinate α]

namespace Marker

def item (m : Marker α) : RowItem α :=
  ⟨m.start, .marker, m.style, .repeated (Coordinate.toCount (m.stop - m.start)) m.style.glyph⟩

/-- Why the marker cannot be written, if it cannot. -/
def fault? (m : Marker α) : Option TextFault := Coordinate.fault? (m.stop - m.start)

def pointer (m : Marker α) : RowItem α :=
  ⟨m.start, .pointer, m.style, .repeated 1 pointerGlyph⟩

def messageAt (m : Marker α) (column : α) (text : String) : RowItem α :=
  ⟨column, .message, m.style, text⟩

/-- The column of a message that stands behind its marker. -/
def behind (m : Marker α) : α := m.stop + 1

/-- The lines of the message; none if there is no message. -/
def messageLines (m : Marker α) : List String := m.message.elim [] Text.lines

/-- Whether the message can stand between this marker and the next one, if any. -/
def fitsBefore (m : Marker α) (next : Option (Marker α)) : Bool :=
  match next, m.messageLines with
  | none, _ => true
  | some next, [text] => m.behind + (text.length : α) < next.start
  | some _, _ => false

/-- The items of the first row: the marker, and what stands behind it. -/
def firstItems (m : Marker α) (next : Option (Marker α)) : List (RowItem α) :=
  m.item ::
    if m.fitsBefore next then (m.messageLines.take 1).map (m.messageAt m.behind) else []

/-- Whether the message hangs below its marker. -/
def hangs (m : Marker α) (next : Option (Marker α)) : Bool :=
  m.message.isSome && !m.fitsBefore next

end Marker

/-- Each marker of a row with the one after it. -/
def withNext : List (Marker α) → List (Marker α × Option (Marker α))
  | [] => []
  | m :: ms => (m, ms.head?) :: withNext ms

/-- The markers whose messages hang, from left to right. -/
def hanging (row : List (Marker α)) : List (Marker α) :=
  ((withNext row).filter fun (m, next) => m.hangs next).map (·.1)

/-- The further lines of the message behind the last marker. -/
def tailRows (row : List (Marker α)) : List (List (RowItem α)) :=
  match row.getLast? with
  | none => []
  | some last =>
    (last.messageLines.drop 1).map fun text =>
      (hanging row).map Marker.pointer ++ [last.messageAt last.behind text]

/-- Hanging messages from right to left, given the markers in that order; the
markers further left keep their pointers. -/
def hangingRows : List (Marker α) → List (List (RowItem α))
  | [] => []
  | m :: left =>
    m.messageLines.map
        (fun text => left.reverse.map Marker.pointer ++ [m.messageAt m.start text]) ++
      hangingRows left

/-- The rows of items for one row of markers. -/
def annotate (row : List (Marker α)) : List (List (RowItem α)) :=
  let first := (withNext row).flatMap fun (m, next) => m.firstItems next
  let below :=
    match hanging row with
    | [] => []
    | pending => pending.map Marker.pointer :: hangingRows pending.reverse
  first :: tailRows row ++ below

/-- The rows of items, if all of their markers can be written. -/
def annotate? (row : List (Marker α)) : Except TextFault (List (List (RowItem α))) :=
  match row.findSome? Marker.fault? with
  | some fault => .error fault
  | none => .ok (annotate row)

end

end Excerpt
