/-! Texts of several lines, and texts that are repeated or padded. -/
namespace Excerpt.Text

/-- The parts between line feeds; a text without one is a single part. -/
def lines (text : String) : List String := (text.toList.splitOn '\n').map String.ofList

def repeated (count : Nat) (c : Char) : String := String.ofList (List.replicate count c)

def spaces (count : Nat) : String := repeated count ' '

/-- Spaces go in front until a text has the given number of code points. -/
def padStart (width : Nat) (text : String) : String := spaces (width - text.length) ++ text

end Excerpt.Text
