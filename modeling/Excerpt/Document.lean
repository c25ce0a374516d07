import Excerpt.Style
import Excerpt.Text.Strip

/-! Documents: text with nested styled regions. Text takes the style of the
nearest region around it; a region replaces the style outside, it adds nothing
to it. -/
namespace Excerpt

inductive Node where
  | text (value : Strip)
  | styled (style : Style) (children : List Node)
  deriving Inhabited, Repr

abbrev Document := List Node

/-- What a document may be put together from: optional parts are left out, and
groups are spliced in place. -/
inductive Content where
  | nothing
  | text (value : Strip)
  | node (node : Node)
  | group (items : List Content)
  deriving Inhabited

namespace Content

mutual

/-- The nodes of a part; empty text makes none. -/
def nodes : Content → Document
  | nothing => []
  | text value => if value.isEmpty then [] else [.text value]
  | node n => [n]
  | group items => nodesOfAll items

def nodesOfAll : List Content → Document
  | [] => []
  | item :: items => nodes item ++ nodesOfAll items

end

end Content

namespace Document

def ofContent (content : List Content) : Document := Content.nodesOfAll content

/-- The line feed of a line stands outside of every region. -/
def line (content : List Content) : Document := ofContent content ++ [.text "\n"]

end Document

def Node.ofContent (style : Style) (content : List Content) : Node :=
  .styled style (Document.ofContent content)

end Excerpt
