import Excerpt.Proofs.Number.Order
import Excerpt.Proofs.Number.Rounding

/-! What counting comes to in binary64. The sums and the differences on the way are rounded, so
a count may stop growing or have no value at all. While it is below the greatest exact number it is
a natural number. -/
namespace Excerpt

namespace Number

/-- A count that started at `least`. -/
def Counted (least : Nat) (a : Number) : Prop := a ≠ .undefined → Reaches least a

namespace Counted

variable {least : Nat} {a b : Number}

theorem natCast {n : Nat} (h : least ≤ n) : Counted least (n : Number) := fun _ => .inr ⟨n, h, rfl⟩

theorem add_right {bound : Nat} (h : Counted least a) (small : bound ≤ exactLimit) {m : Nat}
    (le : bound ≤ m + least) : Counted bound ((m : Number) + a) := by
  intro defined
  refine (h ?_).add small le
  rintro rfl
  exact defined rfl

/-- Counting on from where one is does not lead back. -/
theorem add (ha : Counted least a) (hb : Counted 0 b) (small : least ≤ exactLimit) :
    Counted least (a + b) := by
  intro defined
  have some_a : a ≠ .undefined := by
    rintro rfl
    exact defined rfl
  have some_b : b ≠ .undefined := by
    rintro rfl
    cases a <;> exact defined rfl
  rcases ha some_a with rfl | ⟨n, le, rfl⟩
  · rcases hb some_b with rfl | ⟨m, _, rfl⟩ <;> exact .inl rfl
  · exact (hb some_b).add small (by omega)

theorem sub {m : Nat} (h : Counted (least + m) a) (small : least ≤ exactLimit) :
    Counted least (a - (m : Number)) := by
  intro defined
  refine (h ?_).sub small
  rintro rfl
  exact defined rfl

/-- A count below the greatest exact number has not been rounded to anything else. -/
theorem eq_natCast_of_lt {limit : Nat} (h : Counted least a) (lt : a < (limit : Number)) :
    ∃ n, least ≤ n ∧ n < limit ∧ a = (n : Number) := by
  rcases h (defined_of_less lt).1 with rfl | ⟨n, le, rfl⟩
  · cases lt
  · exact ⟨n, le, LinearCoordinate.natCast_lt.mp lt, rfl⟩

end Counted

/-- Rounding does not bring a sum below a number that is not rounded itself. -/
theorem add_lt_natCast {m n limit : Nat} (small : limit ≤ exactLimit) :
    (m : Number) + (n : Number) < (limit : Number) ↔ m + n < limit := by
  by_cases inside : m + n ≤ exactLimit
  · rw [add_natCast inside, LinearCoordinate.natCast_lt]
  · have far : Counted limit ((m : Number) + (n : Number)) := by
      intro _
      rw [add_eq_nearest]
      exact reaches_nearest small (by omega)
    constructor
    · intro lt
      obtain ⟨k, le, below, _⟩ := far.eq_natCast_of_lt lt
      omega
    · omega

theorem Counted.eq_natCast_of_add_lt {least m limit : Nat} {a : Number} (h : Counted least a)
    (small : limit ≤ exactLimit) (lt : a + (m : Number) < (limit : Number)) :
    ∃ n, least ≤ n ∧ n + m < limit ∧ a = (n : Number) := by
  have defined : a ≠ .undefined := by
    rintro rfl
    cases lt
  rcases h defined with rfl | ⟨n, le, rfl⟩
  · cases lt
  · exact ⟨n, le, (add_lt_natCast small).mp lt, rfl⟩

theorem max_of_defined {a b : Number} (ha : a ≠ .undefined) (hb : b ≠ .undefined) :
    max a b = if a < b then b else a := by
  have defined {a : Number} (h : a ≠ .undefined) : a.isUndefined = false := by
    cases a <;> first | rfl | exact absurd rfl h
  show (if a.isUndefined || b.isUndefined then _ else _) = _
  rw [defined ha, defined hb]
  rfl

/-- Both of two numbers are below what the greater one is below. -/
theorem lt_of_max_lt {a b c : Number} (h : max a b < c) : a < c ∧ b < c := by
  have ha : a ≠ .undefined := by
    rintro rfl
    cases h
  have hb : b ≠ .undefined := by
    rintro rfl
    cases a <;> cases h
  rw [max_of_defined ha hb] at h
  by_cases lt : a < b
  · rw [if_pos lt] at h
    exact ⟨LinearCoordinate.lt_trans lt h, h⟩
  · rw [if_neg lt] at h
    have le := LinearCoordinate.le_of_not_lt (le_self_iff.mpr ha) (le_self_iff.mpr hb) lt
    exact ⟨h, LinearCoordinate.lt_of_le_of_lt le h⟩

theorem max_natCast (m n : Nat) : max (m : Number) (n : Number) = ((max m n : Nat) : Number) := by
  rw [max_of_defined (by simp [natCast_eq]) (by simp [natCast_eq])]
  by_cases lt : m < n
  · rw [if_pos (LinearCoordinate.natCast_lt.mpr lt), Nat.max_eq_right (Nat.le_of_lt lt)]
  · rw [if_neg (mt LinearCoordinate.natCast_lt.mp lt), Nat.max_eq_left (Nat.le_of_not_lt lt)]

end Number

namespace Columns

open Number (Counted)

theorem counted_advance {tabWidth : Nat} (pos : 0 < tabWidth) {column : Number}
    (h : Counted 0 column) (c : Char) : Counted 0 (advance (tabWidth : Number) column c) := by
  have stretch : Counted 0 ((tabWidth : Number) - column % (tabWidth : Number)) := by
    intro defined
    cases column with
    | undefined => exact absurd rfl defined
    | infinite _ => exact absurd rfl defined
    | finite value =>
      obtain negative | ⟨n, _, own⟩ := h (by simp)
      · cases negative
      · have inside := Nat.mod_lt n pos
        rw [own, Number.mod_natCast pos]
        exact .of_sub (Nat.zero_le _) (by omega)
  rw [advance]
  split
  · exact h.add stretch (Nat.zero_le _)
  · exact h.add (.natCast (Nat.zero_le 1)) (Nat.zero_le _)

theorem counted_endOf {tabWidth : Nat} (pos : 0 < tabWidth) {column : Number}
    (h : Counted 0 column) (cs : List Char) : Counted 0 (endOf (tabWidth : Number) column cs) := by
  induction cs generalizing column with
  | nil => exact h
  | cons c cs ih => exact ih (counted_advance pos h c)

theorem counted_width {tabWidth : Nat} (pos : 0 < tabWidth) (text : String) :
    Counted 0 (width (tabWidth : Number) text) :=
  (counted_endOf pos (.natCast (Nat.zero_le 0)) text.toList).sub (Nat.zero_le _)

/-- The column behind a text, counted from 1. -/
theorem counted_behind {tabWidth : Nat} (pos : 0 < tabWidth) (text : String) :
    Counted 1 (1 + width (tabWidth : Number) text) :=
  (counted_width pos text).add_right (m := 1) (by decide) (Nat.le_refl 1)

end Columns
end Excerpt
