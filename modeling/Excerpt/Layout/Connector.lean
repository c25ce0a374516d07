import Excerpt.Entries
import Excerpt.Layout.Order

/-! Connector columns. A label over several lines owns a column beside the
source text, in which a bar joins its first line to its last. -/
namespace Excerpt

/-- A column in use, and the last line it is used on. -/
structure Occupied (α : Type) where
  column : Nat
  lastLine : α
  deriving DecidableEq, Repr

variable {α : Type} [LT α] [DecidableLT α] [LE α] [DecidableLE α] [DecidableEq α] [NatCast α]

/-- The smallest column from `column` on that is not in use; `fuel` bounds the
search, and as many columns as there are in use are enough. -/
def freeColumnFrom (occupied : List (Occupied α)) (column : Nat) : (fuel : Nat) → Nat
  | 0 => column
  | fuel + 1 =>
    if occupied.any (·.column == column) then freeColumnFrom occupied (column + 1) fuel
    else column

def freeColumn (occupied : List (Occupied α)) : Nat := freeColumnFrom occupied 0 occupied.length

/-- The columns of labels by their orders. -/
abbrev Connectors (α : Type) := Entries α Nat

/-- The labels still to be given columns, in order of their first lines. -/
def connectFrom (occupied : List (Occupied α)) (columns : Connectors α) :
    List (ResolvedLabel α) → Connectors α
  | [] => columns
  | l :: labels =>
    let occupied := occupied.filter fun entry => l.start.line ≤ entry.lastLine
    let column := freeColumn occupied
    connectFrom (occupied ++ [⟨column, l.stop.line⟩]) (Entries.set columns l.order column) labels

/-- Gives each label over several lines the smallest column that no label with a
line in common holds. -/
def connectors (labels : List (ResolvedLabel α)) : Connectors α :=
  connectFrom [] [] (ResolvedLabel.sort (labels.filter ResolvedLabel.isMultiline))

/-- How many columns are in use. -/
def Connectors.width (columns : Connectors α) : Nat :=
  columns.foldl (fun width entry => max width (entry.2 + 1)) 0

/-- One slot per column: the style of the label whose bar passes there. -/
abbrev Slots := List (Option LabelStyle)

/-- The slots of a place that some labels pass; a later label comes out on top. -/
def Connectors.slots (columns : Connectors α) (labels : List (ResolvedLabel α))
    (passes : ResolvedLabel α → Bool) : Slots :=
  let passing := (labels.filter passes).filterMap fun l =>
    (columns.lookup l.order).map fun column => (column, l.style)
  let lastFirst := passing.reverse
  (List.range columns.width).map fun column => lastFirst.lookup column

end Excerpt
