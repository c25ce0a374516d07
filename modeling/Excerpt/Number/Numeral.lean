import Excerpt.Decimal.Text
import Excerpt.Text.Blank
import Excerpt.Text.Digit

/-! Numerals in command line arguments: decimal ones, whole numbers in three other
bases, and infinity. Blanks around a numeral do not count, and nothing is zero. -/
namespace Excerpt

namespace Numeral

/-- The base that is marked by a letter behind a zero. -/
def base? (mark : Char) : Option Nat :=
  match mark with
  | 'x' | 'X' => some 16
  | 'o' | 'O' => some 8
  | 'b' | 'B' => some 2
  | _ => none

/-- A whole number behind the mark of its base; it has no sign. -/
def marked? (cs : List Char) : Option Number :=
  match cs with
  | '0' :: mark :: digit :: digits => do
    let n ← ofDigits? (← base? mark) (digit :: digits)
    return (⟨false, n, 0⟩ : Decimal).toNumber
  | _ => none

def infinity? (cs : List Char) : Option Number :=
  let (negative, cs) := Decimal.splitSign cs
  if String.ofList cs = "Infinity" then some (.infinite negative) else none

end Numeral

/-- The number a whole text names. -/
def Number.ofText? (text : String) : Option Number :=
  match Text.stripBlanks text.toList with
  | [] => some (.finite 0)
  | cs =>
    ((Numeral.marked? cs).or (Numeral.infinity? cs)).or ((Decimal.ofChars? cs).map Decimal.toNumber)

end Excerpt
