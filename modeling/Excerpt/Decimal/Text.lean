import Excerpt.Decimal

/-! The text of numerals: how a number is written in messages, and how the
digits of a numeral are read. -/
namespace Excerpt

/-- Where the point of a number may stand, counted from its first digit, for
the number to be written without an exponent. -/
structure NumberStyle where
  leastPoint : Int
  greatestPoint : Int

namespace Decimal

/-- Numbers from a millionth up to twenty-one digits are written out. -/
def messageStyle : NumberStyle := ⟨-5, 21⟩

def digits (n : Nat) : String := String.ofList (Nat.toDigits 10 n)

def zeros (count : Nat) : String := String.ofList (List.replicate count '0')

def integerText : Int → String
  | .ofNat n => digits n
  | .negSucc n => "-" ++ digits (n + 1)

/-- A positive numeral without a point in its significand. -/
def write (style : NumberStyle) (d : Decimal) : String :=
  let text := Nat.toDigits 10 d.significand
  let point := (text.length : Int) + d.exponent
  if style.leastPoint ≤ point ∧ point ≤ style.greatestPoint then
    if 0 ≤ d.exponent then String.ofList text ++ zeros d.exponent.toNat
    else if 0 < point then
      String.ofList (text.take point.toNat) ++ "." ++ String.ofList (text.drop point.toNat)
    else "0." ++ zeros (-point).toNat ++ String.ofList text
  else
    let exponent := point - 1
    let fraction := if text.length = 1 then "" else "." ++ String.ofList (text.drop 1)
    String.ofList (text.take 1) ++ fraction ++ "e" ++
      (if 0 ≤ exponent then "+" else "") ++ integerText exponent

/-- The digits at the front of a text. -/
def spanDigits (cs : List Char) : List Char × List Char :=
  (cs.takeWhile Char.isDigit, cs.dropWhile Char.isDigit)

/-- An exponent part, if one starts here. -/
def readExponent (cs : List Char) : Option (Int × List Char) :=
  let signed (negative : Bool) (cs : List Char) : Option (Int × List Char) :=
    match spanDigits cs with
    | ([], _) => none
    | (ds, rest) =>
      let n : Int := Nat.ofDigitChars 10 ds 0
      some (if negative then -n else n, rest)
  match cs with
  | 'e' :: '-' :: rest | 'E' :: '-' :: rest => signed true rest
  | 'e' :: '+' :: rest | 'E' :: '+' :: rest => signed false rest
  | 'e' :: rest | 'E' :: rest => signed false rest
  | _ => some (0, cs)

/-- A numeral from the digits before and after its point and its exponent. -/
def ofParts (negative : Bool) (whole fraction : List Char) (exponent : Int) : Decimal :=
  ⟨negative, Nat.ofDigitChars 10 (whole ++ fraction) 0, exponent - fraction.length⟩

/-- Takes a sign off the front of a numeral: whether it is a minus, and the rest. -/
def splitSign : List Char → Bool × List Char
  | '-' :: rest => (true, rest)
  | '+' :: rest => (false, rest)
  | cs => (false, cs)

/-- Reads a numeral that takes up a whole text. -/
def ofChars? (cs : List Char) : Option Decimal :=
  let (negative, cs) := splitSign cs
  let (whole, rest) := spanDigits cs
  let (fraction, rest) :=
    match rest with
    | '.' :: rest => spanDigits rest
    | rest => ([], rest)
  if whole.isEmpty && fraction.isEmpty then none
  else
    match readExponent rest with
    | some (exponent, []) => some (ofParts negative whole fraction exponent)
    | _ => none

end Decimal

namespace Number

/-- A number in a message. -/
def toText : Number → String
  | .infinite negative => if negative then "-Infinity" else "Infinity"
  | .undefined => "NaN"
  | .finite value =>
    if value.num = 0 then "0"
    else
      let sign := if value.num < 0 then "-" else ""
      sign ++ (Decimal.shortest (if value.num < 0 then -value else value)).write
        Decimal.messageStyle

end Number
end Excerpt
