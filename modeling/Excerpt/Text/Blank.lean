/-! Blank characters: the white space and line ends of Unicode, and the byte
order mark. -/
namespace Excerpt.Text

def isBlank (c : Char) : Bool :=
  let n := c.toNat
  (0x09 ≤ n && n ≤ 0x0D) || n == 0x20 || n == 0xA0 || n == 0x1680 ||
    (0x2000 ≤ n && n ≤ 0x200A) || n == 0x2028 || n == 0x2029 || n == 0x202F ||
    n == 0x205F || n == 0x3000 || n == 0xFEFF

/-- What is left without the blanks at the end. -/
def dropBlankEnd (cs : List Char) : List Char := (cs.reverse.dropWhile isBlank).reverse

/-- What is left without the blanks at both ends. -/
def stripBlanks (cs : List Char) : List Char := dropBlankEnd (cs.dropWhile isBlank)

/-- A text without the blanks it ends in. -/
def trimBlanks (text : String) : String := String.ofList (dropBlankEnd text.toList)

end Excerpt.Text
