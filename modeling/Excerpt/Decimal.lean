import Excerpt.Number.Nearest

/-! Decimal numerals. A numeral names the binary64 number nearest to it, and a
number is written with the fewest digits that name it. -/
namespace Excerpt

/-- `significand · 10 ^ exponent`, with a sign. -/
structure Decimal where
  negative : Bool
  significand : Nat
  exponent : Int
  deriving DecidableEq, Repr

namespace Decimal

/-- How many decimal digits a natural number has; zero has one. -/
def digitCount (n : Nat) : Nat := (Nat.toDigits 10 n).length

def toRat (d : Decimal) : Rat :=
  let magnitude : Rat :=
    match d.exponent with
    | .ofNat e => (d.significand * Nat.pow 10 e : Nat)
    | .negSucc e => mkRat d.significand (Nat.pow 10 (e + 1))
  if d.negative then -magnitude else magnitude

/-- The number a numeral names. Numerals far outside the range are decided by
their digit count alone, so that no huge power is computed for them. -/
def toNumber (d : Decimal) : Number :=
  let magnitude := digitCount d.significand + d.exponent
  if d.significand = 0 ∨ magnitude < -330 then .finite 0
  else if 330 < magnitude then .infinite d.negative
  else .nearest d.toRat

/-- The greatest exponent of ten whose power is at most `n / d`, for positive `n` and `d`. -/
def floorLog10 (n d : Nat) : Int :=
  if d ≤ n then (digitCount (n / d) : Int) - 1
  else
    Int.neg (digitCount ((d + n - 1) / n - 1))

/-- The multiples of a power of ten next to a positive value, nearest first; a
value halfway between them is nearer to the even one. -/
def neighbours (n d : Nat) (exponent : Int) : List Nat :=
  let (n, d) :=
    match exponent with
    | .ofNat e => (n, d * Nat.pow 10 e)
    | .negSucc e => (n * Nat.pow 10 (e + 1), d)
  let near := Number.roundDiv n d
  let floor := n / d
  [near, if near = floor then floor + 1 else floor]

/-- The numeral of `count` digits nearest to a positive value among those that
name it, if there is one. -/
def ofDigits? (value : Rat) (count : Nat) : Option Decimal :=
  let n := value.num.natAbs
  let exponent := floorLog10 n value.den - count + 1
  let named (significand : Nat) : Bool :=
    toNumber ⟨false, significand, exponent⟩ == .finite value
  (neighbours n value.den exponent).find? named |>.map fun significand =>
    ⟨false, significand, exponent⟩

/-- Drops the zeros a significand ends in; `fuel` bounds their number. -/
def dropZeros (fuel : Nat) (d : Decimal) : Decimal :=
  match fuel with
  | 0 => d
  | fuel + 1 =>
    if d.significand % 10 = 0 then
      dropZeros fuel { d with significand := d.significand / 10, exponent := d.exponent + 1 }
    else d

/-- The shortest numeral that names a positive number; seventeen digits name any. -/
def shortest (value : Rat) : Decimal :=
  let found := (List.range 17).findSome? fun count => ofDigits? value (count + 1)
  let d := found.getD ⟨false, value.num.natAbs / value.den, 0⟩
  dropZeros (digitCount d.significand) d

end Decimal
end Excerpt
