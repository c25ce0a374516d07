/-! Numbers as a caller may hand them in: offsets, file ids, option values and
template arguments. They are exact, so a number that is out of range or has a
fraction can still be quoted in the message that refuses it. -/
namespace Excerpt

/-- An exact value, one beyond every exact value, or none at all, such as the
difference of two infinities. Zero has no sign. -/
inductive Number where
  | finite (value : Rat)
  | infinite (negative : Bool)
  | undefined
  deriving DecidableEq, Repr

namespace Number

instance : Inhabited Number := ⟨.finite 0⟩

instance : NatCast Number := ⟨fun n => .finite n⟩

instance : IntCast Number := ⟨fun i => .finite i⟩

instance : Coe Nat Number := ⟨fun n => (n : Number)⟩

/-- The natural number a value is, if it is one. -/
def toNat? : Number → Option Nat
  | .finite value =>
    if value.den = 1 ∧ 0 ≤ value.num then some value.num.toNat else none
  | _ => none

/-- What is left of a value that is not negative when its fraction is cut off. -/
def whole? : Number → Option Nat
  | .finite value =>
    if 0 ≤ value.num then some (value.num.toNat / value.den) else none
  | _ => none

/-- The order of values, with the infinities at its ends; what is undefined has
no place in it. -/
def less : Number → Number → Bool
  | .finite a, .finite b => decide (a < b)
  | .finite _, .infinite negative => !negative
  | .infinite negative, .finite _ => negative
  | .infinite a, .infinite b => a && !b
  | _, _ => false

theorem natCast_eq (n : Nat) : (n : Number) = .finite (n : Rat) := rfl

@[simp] theorem toNat?_natCast (n : Nat) : toNat? (n : Number) = some n := by
  simp [toNat?]

@[simp] theorem whole?_natCast (n : Nat) : whole? (n : Number) = some n := by
  simp [whole?]

theorem toNat?_eq_some_iff {a : Number} {n : Nat} : a.toNat? = some n ↔ a = (n : Number) := by
  constructor
  · intro h
    cases a with
    | infinite _ => simp [toNat?] at h
    | undefined => simp [toNat?] at h
    | finite value =>
      simp only [toNat?, Option.ite_none_right_eq_some, Option.some.injEq] at h
      obtain ⟨⟨hden, hnum⟩, rfl⟩ := h
      show Number.finite value = Number.finite _
      congr 1
      apply Rat.ext
      · rw [Rat.num_natCast, Int.toNat_of_nonneg hnum]
      · rw [Rat.den_natCast, hden]
  · rintro rfl
    exact toNat?_natCast n

end Number
end Excerpt
