import Excerpt.Document

/-! Printed lines, put together from segments of one style each. -/
namespace Excerpt

structure Segment where
  style : Option Style
  text : Strip
  deriving DecidableEq, Repr

namespace Segment

def plain (text : Strip) : Segment := ⟨none, text⟩

def node (s : Segment) : Node :=
  match s.style with
  | none => .text s.text
  | some style => .ofContent style [.text s.text]

/-- Segments without the spaces that their text ends in. -/
def trim : List Segment → List Segment
  | [] => []
  | s :: segments =>
    match trim segments with
    | [] =>
      let text := s.text.trimSpaces
      if text.isEmpty then [] else [{ s with text }]
    | kept => s :: kept

end Segment

namespace Document

/-- A line that keeps the spaces it ends in. -/
def verbatimLine (segments : List Segment) : Document :=
  segments.map Segment.node ++ [.text "\n"]

/-- A line without trailing spaces. -/
def trimmedLine (segments : List Segment) : Document := verbatimLine (Segment.trim segments)

end Document
end Excerpt
