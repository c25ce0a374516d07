import Excerpt.Document
import Excerpt.Text.Extent
import Excerpt.Text.Quoted

/-! The outline of a document: one line per node, indented by its depth. -/
namespace Excerpt

def indent (depth : Nat) : Strip := .repeated (2 * depth) ' '

mutual

def Node.outlineAt (depth : Nat) : Node → List Strip
  | .text value => [indent depth ++ Quoted.quote value]
  | .styled style children =>
    (indent depth ++ .ofString ("styled \x7b" ++ style.toText ++ "\x7d")) ::
      Document.outlineAt (depth + 1) children

def Document.outlineAt (depth : Nat) : List Node → List Strip
  | [] => []
  | node :: nodes => Node.outlineAt depth node ++ Document.outlineAt depth nodes

end

/-- The lines of the outline as one text, if there is a text that long. -/
def Document.outline (document : Document) : Except TextFault Strip :=
  (Strip.join ((Document.outlineAt 0 document).intersperse (.ofString "\n"))).fitting?

end Excerpt
