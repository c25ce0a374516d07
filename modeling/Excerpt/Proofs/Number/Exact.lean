import Excerpt.Proofs.Text.Columns
import Mathlib.Data.Rat.Floor

/-! Where binary64 is exact. Sums and differences of natural numbers are not rounded
up to the greatest number a significand can hold, and remainders never are; so columns
up to there are the same in natural numbers and in binary64. -/
namespace Excerpt

namespace Number

/-- Up to here every natural number is a binary64 number. -/
def exactLimit : Nat := Nat.pow 2 binary64.precision

theorem add_eq_nearest (a b : Nat) :
    (a : Number) + (b : Number) = nearest ((a + b : Nat) : Rat) := by
  have sum : (a : Number) + (b : Number) = nearest ((a : Rat) + (b : Rat)) := rfl
  rw [sum, ← Rat.natCast_add]

theorem sub_eq_nearest {a b : Nat} (ordered : b ≤ a) :
    (a : Number) - (b : Number) = nearest ((a - b : Nat) : Rat) := by
  have difference : (a : Number) - (b : Number) = nearest ((a : Rat) + -(b : Rat)) := rfl
  rw [difference, ← sub_eq_add_neg, ← Nat.cast_sub ordered]

theorem add_natCast {a b : Nat} (h : a + b ≤ exactLimit) :
    (a : Number) + (b : Number) = ((a + b : Nat) : Number) := by
  rw [add_eq_nearest, nearest_natCast h]

theorem sub_natCast {a b : Nat} (ordered : b ≤ a) (h : a - b ≤ exactLimit) :
    (a : Number) - (b : Number) = ((a - b : Nat) : Number) := by
  rw [sub_eq_nearest ordered, nearest_natCast h]

theorem truncate_div (a b : Nat) : truncate ((a : Rat) / (b : Rat)) = ((a / b : Nat) : Int) := by
  have positive : ¬(a : Rat) / (b : Rat) < 0 := not_lt.mpr (by positivity)
  have floor : ((a : Rat) / (b : Rat)).floor = ((a / b : Nat) : Int) :=
    Rat.floor_natCast_div_natCast a b
  rw [truncate, if_neg positive, floor]

theorem mod_natCast {a b : Nat} (pos : 0 < b) :
    (a : Number) % (b : Number) = ((a % b : Nat) : Number) := by
  have some_width : (b : Rat) ≠ 0 := Nat.cast_ne_zero.mpr (Nat.ne_of_gt pos)
  have rest : (a : Rat) - (b : Rat) * ((a / b : Nat) : Int) = ((a % b : Nat) : Rat) := by
    have whole : ((a % b + b * (a / b) : Nat) : Rat) = (a : Rat) := by rw [Nat.mod_add_div]
    rw [Nat.cast_add, Nat.cast_mul] at whole
    rw [← whole, Int.cast_natCast, add_sub_cancel_right]
  show remainder (.finite a) (.finite b) = _
  rw [remainder, if_neg some_width, truncate_div, rest]
  rfl

end Number

namespace Columns

open Number (exactLimit)

theorem advance_natCast {tabWidth column : Nat} (pos : 0 < tabWidth) (c : Char)
    (h : advance tabWidth column c ≤ exactLimit) :
    advance (tabWidth : Number) (column : Number) c =
      ((advance tabWidth column c : Nat) : Number) := by
  have inside := Nat.mod_lt column pos
  rw [advance_eq] at h ⊢
  rw [advance]
  split
  · rename_i tab
    rw [if_pos tab] at h
    rw [Number.mod_natCast pos, Number.sub_natCast (Nat.le_of_lt inside) (by omega),
      Number.add_natCast h]
  · rename_i other
    rw [if_neg other] at h
    exact Number.add_natCast h

theorem endOf_natCast {tabWidth column : Nat} (pos : 0 < tabWidth) {cs : List Char}
    (h : endOf tabWidth column cs ≤ exactLimit) :
    endOf (tabWidth : Number) (column : Number) cs =
      ((endOf tabWidth column cs : Nat) : Number) := by
  induction cs generalizing column with
  | nil => rfl
  | cons c cs ih =>
    rw [endOf] at h ⊢
    have later := le_endOf pos (advance tabWidth column c) cs
    rw [advance_natCast pos c (by omega), ih h, endOf]

theorem width_natCast {tabWidth : Nat} (pos : 0 < tabWidth) {text : String}
    (h : width tabWidth text ≤ exactLimit) :
    width (tabWidth : Number) text = ((width tabWidth text : Nat) : Number) := by
  rw [width_eq] at h ⊢
  show endOf (tabWidth : Number) ((0 : Nat) : Number) text.toList - ((0 : Nat) : Number) = _
  rw [endOf_natCast pos h, Number.sub_natCast (Nat.zero_le _) h, Nat.sub_zero]

end Columns
end Excerpt
