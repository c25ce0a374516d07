import Excerpt.Number

/-! The binary64 number nearest to an exact value. A value halfway between two
of them goes to the one whose significand is even. -/
namespace Excerpt.Number

/-- A binary floating-point format: significands of at most `precision` bits
times a power of two whose exponent lies between the two bounds. -/
structure Format where
  precision : Nat
  minExponent : Int
  maxExponent : Int

def binary64 : Format := ⟨53, -1074, 971⟩

/-- The integer nearest to `n / d`; of two equally near ones the even one. -/
def roundDiv (n d : Nat) : Nat :=
  let floor := n / d
  let twice := 2 * (n % d)
  if twice < d ∨ (twice = d ∧ floor % 2 = 0) then floor else floor + 1

/-- `n` times two to the given power, as a numerator and a denominator. -/
def scale (n d : Nat) (exponent : Int) : Nat × Nat :=
  match exponent with
  | .ofNat e => (n * Nat.pow 2 e, d)
  | .negSucc e => (n, d * Nat.pow 2 (e + 1))

/-- The greatest exponent of two whose power is at most `n / d`, for positive `n` and `d`. -/
def floorLog2 (n d : Nat) : Int :=
  let guess : Int := (Nat.log2 n : Int) - Nat.log2 d
  let (n, d) := scale n d (-guess)
  if d ≤ n then guess else guess - 1

/-- The nearest significand and exponent of a positive quotient, or `none`
when rounding leaves the range of the format. -/
def Format.nearest? (format : Format) (n d : Nat) : Option (Nat × Int) :=
  let exponent := max (floorLog2 n d - (format.precision - 1 : Nat)) format.minExponent
  let (n, d) := scale n d (-exponent)
  let significand := roundDiv n d
  if format.maxExponent < exponent ∨
      (exponent = format.maxExponent ∧ Nat.pow 2 format.precision ≤ significand) then none
  else some (significand, exponent)

/-- An integer that a significand can hold is the number nearest to itself. -/
def nearest (value : Rat) : Number :=
  if value.den = 1 ∧ value.num.natAbs ≤ Nat.pow 2 binary64.precision then .finite value
  else
    match binary64.nearest? value.num.natAbs value.den with
    | none => .infinite (value.num < 0)
    | some (significand, exponent) =>
      let (n, d) := scale significand 1 exponent
      .finite (mkRat (if value.num < 0 then -n else n) d)

theorem nearest_natCast {n : Nat} (h : n ≤ Nat.pow 2 binary64.precision) :
    nearest (n : Rat) = (n : Number) :=
  if_pos ⟨Rat.den_natCast n, by simpa using h⟩

end Excerpt.Number
