import Excerpt.Text.Strip

/-! Text in double quotes on one line. -/
namespace Excerpt.Quoted

/-- Lower-case hexadecimal digits, padded to four. -/
def hex4 (n : Nat) : List Char :=
  let digits := Nat.toDigits 16 n
  List.replicate (4 - digits.length) '0' ++ digits

/-- Quotes, backslashes and the characters below a space are escaped; all others
stand for themselves. -/
def escape (c : Char) : List Char :=
  match c with
  | '"' => ['\\', '"']
  | '\\' => ['\\', '\\']
  | '\x08' => ['\\', 'b']
  | '\x0c' => ['\\', 'f']
  | '\n' => ['\\', 'n']
  | '\r' => ['\\', 'r']
  | '\t' => ['\\', 't']
  | c => if c.toNat < 0x20 then '\\' :: 'u' :: hex4 c.toNat else [c]

def quote (text : Strip) : Strip :=
  (text.spell escape ++ Strip.repeated 1 '"').push '"' 1

end Excerpt.Quoted
