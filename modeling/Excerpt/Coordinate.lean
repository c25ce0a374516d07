import Excerpt.Number.Arithmetic
import Excerpt.Text.Extent

/-! Coordinates: what lines and columns are counted in. Natural numbers count
exactly; a program counts in binary64, which agrees with them while nothing is
rounded. Positions that come from elsewhere may be any numbers. -/
namespace Excerpt

class Coordinate (α : Type) where
  toNumber : α → Number
  toText : α → String
  /-- How often a character is repeated over an extent: without its fraction, and
  never less than no times. -/
  toCount : α → Nat
  /-- Why a character cannot be repeated over an extent, if it cannot. -/
  fault? : α → Option TextFault

instance : Coordinate Nat where
  toNumber n := n
  toText := Decimal.digits
  toCount n := n
  fault? n := if n ≤ Text.longest then none else some .tooLong

namespace Number

def fault? (n : Number) : Option TextFault :=
  match n with
  | .finite value =>
    if truncate value < 0 then some (.badCount n)
    else if (Text.longest : Int) < truncate value then some .tooLong
    else none
  | .infinite _ => some (.badCount n)
  | .undefined => none

end Number

instance : Coordinate Number where
  toNumber n := n
  toText := Number.toText
  toCount n := n.whole?.getD 0
  fault? := Number.fault?

@[simp] theorem Coordinate.toCount_nat (n : Nat) : Coordinate.toCount n = n := rfl

@[simp] theorem Coordinate.toNumber_nat (n : Nat) : Coordinate.toNumber n = (n : Number) := rfl

theorem Coordinate.fault?_nat (n : Nat) :
    Coordinate.fault? n = none ↔ n ≤ Text.longest := by
  simp only [Coordinate.fault?]
  split <;> simp_all

end Excerpt
