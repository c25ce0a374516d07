import Excerpt.Proofs.Number.Exact

/-! What rounding does to large numbers. A sum or a difference of natural numbers that is beyond
the greatest exact number is rounded to a number beyond it or leaves the range, so what was too
many is still too many when it has been rounded. -/
namespace Excerpt.Number

theorem le_roundDiv (n d : Nat) : n / d ≤ roundDiv n d := by
  unfold roundDiv
  dsimp only
  split <;> omega

theorem scale_natCast (n d e : Nat) : scale n d (e : Int) = (n * 2 ^ e, d) := rfl

theorem scale_neg_natCast (n d e : Nat) : scale n d (-(e : Int)) = (n, d * 2 ^ e) := by
  cases e with
  | zero =>
    show (n * 2 ^ 0, d) = _
    rw [Nat.pow_zero, Nat.mul_one, Nat.mul_one]
  | succ e => rfl

theorem floorLog2_natCast {n : Nat} (filled : n ≠ 0) : floorLog2 n 1 = (Nat.log2 n : Int) := by
  have guess : (Nat.log2 n : Int) - Nat.log2 1 = (Nat.log2 n : Int) := Int.sub_zero _
  have below : 1 * 2 ^ Nat.log2 n ≤ n := Nat.one_mul _ ▸ Nat.log2_self_le filled
  rw [floorLog2, guess, scale_neg_natCast]
  exact if_pos below

/-- The significand of a number beyond the limit has all of its bits, so with any exponent it
makes a number beyond the limit. -/
theorem exactLimit_le_of_nearest? {n significand : Nat} {exponent : Int} (h : exactLimit < n)
    (found : binary64.nearest? n 1 = some (significand, exponent)) :
    ∃ e : Nat, exponent = (e : Int) ∧ exactLimit ≤ significand * 2 ^ e := by
  have filled : n ≠ 0 := by omega
  have bits : 53 ≤ Nat.log2 n := (Nat.le_log2 filled).mpr (Nat.le_of_lt h)
  obtain ⟨e, log⟩ := Nat.exists_eq_add_of_le bits
  have own : max (floorLog2 n 1 - (binary64.precision - 1 : Nat)) binary64.minExponent =
      ((e + 1 : Nat) : Int) := by
    rw [floorLog2_natCast filled, log]
    show max (((53 + e : Nat) : Int) - ((53 - 1 : Nat) : Int)) (-1074) = _
    omega
  rw [Format.nearest?, own, scale_neg_natCast] at found
  dsimp only at found
  split at found
  · cases found
  · cases found
    have least : 2 ^ 52 ≤ roundDiv n (1 * 2 ^ (e + 1)) := by
      have whole : 52 + (e + 1) = Nat.log2 n := by omega
      refine Nat.le_trans ?_ (le_roundDiv _ _)
      rw [Nat.one_mul, Nat.le_div_iff_mul_le (by positivity), ← Nat.pow_add, whole]
      exact Nat.log2_self_le filled
    refine ⟨e + 1, rfl, ?_⟩
    calc exactLimit = 2 ^ 52 * 2 ^ 1 := rfl
      _ ≤ roundDiv n (1 * 2 ^ (e + 1)) * 2 ^ (e + 1) :=
        Nat.mul_le_mul least (Nat.pow_le_pow_right (by decide) (by omega))

/-- A natural number that is not below another one, or one out of the range. -/
def Reaches (least : Nat) (a : Number) : Prop :=
  a = .infinite false ∨ ∃ n : Nat, least ≤ n ∧ a = (n : Number)

theorem reaches_nearest {least n : Nat} (small : least ≤ exactLimit) (h : least ≤ n) :
    Reaches least (nearest (n : Rat)) := by
  by_cases exact : n ≤ exactLimit
  · exact .inr ⟨n, h, nearest_natCast exact⟩
  · have beyond : ¬((n : Rat).den = 1 ∧ (n : Rat).num.natAbs ≤ Nat.pow 2 binary64.precision) :=
      fun inside => exact inside.2
    have positive : ¬((n : Int) < 0) := by omega
    rw [nearest, if_neg beyond, Rat.num_natCast, Rat.den_natCast, Int.natAbs_natCast]
    cases found : binary64.nearest? n 1 with
    | none => exact .inl (congrArg Number.infinite (decide_eq_false positive))
    | some rounded =>
      obtain ⟨significand, exponent⟩ := rounded
      obtain ⟨e, rfl, far⟩ := exactLimit_le_of_nearest? (Nat.lt_of_not_le exact) found
      refine .inr ⟨significand * 2 ^ e, Nat.le_trans small far, ?_⟩
      simp only [scale_natCast, if_neg positive, natCast_eq, Rat.mkRat_one, Rat.intCast_natCast]

namespace Reaches

variable {least : Nat} {a : Number}

theorem of_sub {m n : Nat} (small : least ≤ exactLimit) (h : least + n ≤ m) :
    Reaches least ((m : Number) - (n : Number)) := by
  rw [sub_eq_nearest (by omega)]
  exact reaches_nearest small (by omega)

theorem add {bound m : Nat} (h : Reaches least a) (small : bound ≤ exactLimit)
    (le : bound ≤ m + least) : Reaches bound ((m : Number) + a) := by
  rcases h with rfl | ⟨n, reached, rfl⟩
  · exact .inl rfl
  · rw [add_eq_nearest]
    exact reaches_nearest small (by omega)

theorem sub {m : Nat} (h : Reaches (least + m) a) (small : least ≤ exactLimit) :
    Reaches least (a - (m : Number)) := by
  rcases h with rfl | ⟨n, le, rfl⟩
  · exact .inl rfl
  · exact of_sub small le

end Reaches

theorem toCount_natCast (n : Nat) : Coordinate.toCount (n : Number) = n := by
  show (whole? (n : Number)).getD 0 = n
  rw [whole?_natCast, Option.getD_some]

theorem fault?_natCast (n : Nat) : fault? (n : Number) = none ↔ n ≤ Text.longest := by
  have whole : truncate (n : Rat) = (n : Int) := by simpa using truncate_div n 1
  rw [natCast_eq, fault?, whole, if_neg (by omega)]
  split
  · simp only [reduceCtorEq, false_iff]
    omega
  · simp only [true_iff]
    omega

theorem Reaches.fault?_ne_none {least : Nat} {a : Number} (h : Reaches least a)
    (long : Text.longest < least) : fault? a ≠ none := by
  rcases h with rfl | ⟨n, le, rfl⟩
  · simp [fault?]
  · rw [ne_eq, fault?_natCast]
    omega

end Excerpt.Number
