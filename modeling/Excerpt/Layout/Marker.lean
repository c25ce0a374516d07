import Excerpt.Layout.Order

/-! The markers of a line and the rows they are put on. -/
namespace Excerpt

variable {α : Type} [Add α] [Max α] [LT α] [DecidableLT α] [LE α] [DecidableLE α] [DecidableEq α]
  [OfNat α 1] [NatCast α]

/-- What a label marks on a line whose text ends before column `lineEnd`. A
label on one line marks its columns; a longer one marks the rest of its first
line and its last line up to its end. A marker takes at least one column, and
only the last marker of a label carries its message. -/
def ResolvedLabel.markers (line lineEnd : α) (l : ResolvedLabel α) : List (Marker α) :=
  let marker (start stop : α) (message : Option String) : Marker α :=
    ⟨start, max stop (start + 1), l.style, l.order, message⟩
  if l.isMultiline then
    (if l.start.line = line then [marker l.start.column lineEnd none] else []) ++
      (if l.stop.line = line then [marker 1 l.stop.column l.message] else [])
  else if l.start.line = line then [marker l.start.column l.stop.column l.message]
  else []

/-- The markers of some labels on a line, in order. -/
def markersOn (labels : List (ResolvedLabel α)) (line lineEnd : α) : List (Marker α) :=
  Marker.sort (labels.flatMap (ResolvedLabel.markers line lineEnd))

/-- A marker fits behind the markers of a row if it starts where the last of
them ends or later. -/
def Marker.fitsBehind (m : Marker α) (row : List (Marker α)) : Bool :=
  row.getLast?.all fun last => last.stop ≤ m.start

/-- Puts a marker on the first row it fits on, or on a new one. -/
def placeMarker (m : Marker α) : List (List (Marker α)) → List (List (Marker α))
  | [] => [[m]]
  | row :: rows =>
    if m.fitsBehind row then (row ++ [m]) :: rows else row :: placeMarker m rows

/-- Rows on which no two markers share a column. -/
def markerRows (markers : List (Marker α)) : List (List (Marker α)) :=
  (Marker.sort markers).foldl (fun rows m => placeMarker m rows) []

end Excerpt
