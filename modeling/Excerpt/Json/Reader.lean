import Excerpt.Json
import Excerpt.Json.Fault
import Excerpt.Text.Digit

/-! Reading JSON text (RFC 8259), with no leniency: blanks are spaces, tabs and
line ends, and nothing but blanks may follow the value. -/
namespace Excerpt.Json

def isSpace (c : Char) : Bool := c == ' ' || c == '\t' || c == '\n' || c == '\r'

def skipSpaces (cs : List Char) : List Char := cs.dropWhile isSpace

def hex4? (a b c d : Char) : Option Nat := ofDigits? 16 [a, b, c, d]

/-- The character of an escape of one letter. -/
def simpleEscape? (c : Char) : Option Char :=
  match c with
  | '"' => some '"'
  | '\\' => some '\\'
  | '/' => some '/'
  | 'b' => some '\x08'
  | 'f' => some '\x0c'
  | 'n' => some '\n'
  | 'r' => some '\r'
  | 't' => some '\t'
  | _ => none

/-- The units of a string whose opening quote has been read. An escape of four
digits may be half of a character. -/
def readUnits : List Char → Except Fault (Utf16.Units × List Char)
  | [] => .error (.unexpected [])
  | '"' :: rest => .ok ([], rest)
  | '\\' :: 'u' :: a :: b :: c :: d :: rest =>
    match hex4? a b c d with
    | none => .error (.unexpected (a :: b :: c :: d :: rest))
    | some unit =>
      match readUnits rest with
      | .ok (units, rest) => .ok (.ofNat unit :: units, rest)
      | .error fault => .error fault
  | '\\' :: c :: rest =>
    match simpleEscape? c with
    | none => .error (.unexpected (c :: rest))
    | some e =>
      match readUnits rest with
      | .ok (units, rest) => .ok (Utf16.encodeChar e ++ units, rest)
      | .error fault => .error fault
  | c :: rest =>
    if c.toNat < 0x20 ∨ c = '\\' then .error (.unexpected (c :: rest))
    else
      match readUnits rest with
      | .ok (units, rest) => .ok (Utf16.encodeChar c ++ units, rest)
      | .error fault => .error fault

/-- A string whose opening quote has been read. -/
def readText (cs : List Char) : Except Fault (String × List Char) :=
  match readUnits cs with
  | .ok (units, rest) => .ok (String.ofList (Utf16.decode units), rest)
  | .error fault => .error fault

/-- The rest of a word that stands for a value. -/
def readWord (value : Json) : List Char → List Char → Except Fault (Json × List Char)
  | [], rest => .ok (value, rest)
  | c :: word, d :: rest =>
    if c = d then readWord value word rest else .error (.unexpected (d :: rest))
  | _ :: _, [] => .error (.unexpected [])

/-- The digits behind a point. -/
def readFraction : List Char → Except Fault (List Char × List Char)
  | '.' :: rest =>
    match Decimal.spanDigits rest with
    | ([], rest) => .error (.unexpected rest)
    | parts => .ok parts
  | rest => .ok ([], rest)

/-- A number: no sign but a minus, no leading zeros, and digits on both sides of
the point. -/
def readNumber (cs : List Char) : Except Fault (Decimal × List Char) :=
  let (negative, cs) :=
    match cs with
    | '-' :: rest => (true, rest)
    | cs => (false, cs)
  match Decimal.spanDigits cs with
  | ([], rest) => .error (if negative then .noDigits rest else .unexpected rest)
  | ('0' :: digit :: digits, rest) => .error (.unexpected (digit :: digits ++ rest))
  | (whole, rest) =>
    match readFraction rest with
    | .error fault => .error fault
    | .ok (fraction, rest) =>
      match Decimal.readExponent rest with
      | none => .error (.unexpected (Decimal.splitSign (rest.drop 1)).2)
      | some (exponent, rest) => .ok (Decimal.ofParts negative whole fraction exponent, rest)

mutual

/-- A value and what follows it; `fuel` bounds the number of steps. -/
def readValue (fuel : Nat) (cs : List Char) : Except Fault (Json × List Char) :=
  match fuel with
  | 0 => .error (.unexpected cs)
  | fuel + 1 =>
    match skipSpaces cs with
    | 'n' :: rest => readWord null ['u', 'l', 'l'] rest
    | 't' :: rest => readWord (truth true) ['r', 'u', 'e'] rest
    | 'f' :: rest => readWord (truth false) ['a', 'l', 's', 'e'] rest
    | '"' :: rest =>
      match readText rest with
      | .ok (value, rest) => .ok (text value, rest)
      | .error fault => .error fault
    | '[' :: rest =>
      match skipSpaces rest with
      | ']' :: rest => .ok (list [], rest)
      | rest => readItems fuel [] rest
    | '\x7b' :: rest =>
      match skipSpaces rest with
      | '\x7d' :: rest => .ok (object [], rest)
      | rest => readMembers fuel [] rest
    | rest =>
      match readNumber rest with
      | .ok (d, rest) => .ok (number d.toNumber, rest)
      | .error fault => .error fault

/-- The items of a list from the next one on; `before` holds the last one first. -/
def readItems (fuel : Nat) (before : List Json) (cs : List Char) :
    Except Fault (Json × List Char) :=
  match fuel with
  | 0 => .error (.unexpected cs)
  | fuel + 1 =>
    match readValue fuel cs with
    | .error fault => .error fault
    | .ok (item, rest) =>
      match skipSpaces rest with
      | ',' :: rest => readItems fuel (item :: before) rest
      | ']' :: rest => .ok (list (item :: before).reverse, rest)
      | rest => .error (.unexpected rest)

/-- The members of an object from the next one on; `before` holds the last one first. -/
def readMembers (fuel : Nat) (before : List (String × Json)) (cs : List Char) :
    Except Fault (Json × List Char) :=
  match fuel with
  | 0 => .error (.unexpected cs)
  | fuel + 1 =>
    match skipSpaces cs with
    | '"' :: rest =>
      match readText rest with
      | .error fault => .error fault
      | .ok (name, rest) =>
        match skipSpaces rest with
        | ':' :: rest =>
          match readValue fuel rest with
          | .error fault => .error fault
          | .ok (value, rest) =>
            match skipSpaces rest with
            | ',' :: rest => readMembers fuel ((name, value) :: before) rest
            | '\x7d' :: rest => .ok (object ((name, value) :: before).reverse, rest)
            | rest => .error (.unexpected rest)
        | rest => .error (.unexpected rest)
    | rest => .error (.unexpected rest)

end

/-- The value a whole text holds. Two steps per character are enough. -/
def ofText (source : String) : Except Fault Json :=
  let cs := source.toList
  match readValue (2 * cs.length + 2) cs with
  | .error fault => .error fault
  | .ok (value, rest) =>
    match skipSpaces rest with
    | [] => .ok value
    | rest => .error (.unexpected rest)

end Excerpt.Json
