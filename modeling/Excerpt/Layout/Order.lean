import Excerpt.Resolution

/-! The order of labels and of their markers: by position, then primary before
secondary, then by their place in the diagnostic. -/
namespace Excerpt

/-- The columns from `start` up to but not including `stop` that a label marks
on one line. -/
structure Marker (α : Type) where
  start : α
  stop : α
  style : LabelStyle
  order : α
  message : Option String
  deriving DecidableEq, Repr

section

variable {α : Type} [LT α] [DecidableLT α] [NatCast α]

/-- Whether the left keys are in order before the right ones: the first pair of
keys that differs decides, and equal keys are in order. -/
def inOrder : List (α × α) → Bool
  | [] => true
  | (a, b) :: keys => if a < b then true else if b < a then false else inOrder keys

def Marker.inOrder (a b : Marker α) : Bool :=
  Excerpt.inOrder [(a.start, b.start), ((a.style.rank : α), (b.style.rank : α)), (a.order, b.order)]

def Marker.sort (markers : List (Marker α)) : List (Marker α) := markers.mergeSort Marker.inOrder

def ResolvedLabel.inOrder (a b : ResolvedLabel α) : Bool :=
  Excerpt.inOrder [(a.start.line, b.start.line), (a.start.column, b.start.column),
    ((a.style.rank : α), (b.style.rank : α)), (a.order, b.order)]

def ResolvedLabel.sort (labels : List (ResolvedLabel α)) : List (ResolvedLabel α) :=
  labels.mergeSort ResolvedLabel.inOrder

end

/-- The first difference that is a number other than zero, or else the last one. -/
def firstDifference : List Number → Number
  | [] => 0
  | [d] => d
  | d :: ds => if d = 0 ∨ d = .undefined then firstDifference ds else d

/-- How far two markers are apart by the first of their keys that differs:
negative when `a` comes first, positive when `b` does. -/
def Marker.difference (a b : Marker Number) : Number :=
  firstDifference [a.start - b.start, (a.style.rank : Number) - (b.style.rank : Number),
    a.order - b.order]

end Excerpt
