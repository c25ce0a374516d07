import Excerpt.Layout.Order
import Mathlib.Algebra.Order.Ring.Rat
import Mathlib.Data.Nat.Cast.Basic

/-! The order of coordinates. Natural numbers are in a linear order, and so are the numbers of
binary64 but for the one that is undefined, which has no place in it. -/
namespace Excerpt

/-- Coordinates in a linear order, in which the natural numbers have their order. What has no
place in it is not even equal in order to itself. -/
class LinearCoordinate (α : Type) [LT α] [LE α] [NatCast α] : Prop where
  le_trans {a b c : α} : a ≤ b → b ≤ c → a ≤ c
  le_antisymm {a b : α} : a ≤ b → b ≤ a → a = b
  lt_iff {a b : α} : a < b ↔ a ≤ b ∧ a ≠ b
  placed {a b : α} : a ≤ b → a ≤ a ∧ b ≤ b
  total {a b : α} : a ≤ a → b ≤ b → a ≤ b ∨ b ≤ a
  natCast_le {m n : Nat} : (m : α) ≤ (n : α) ↔ m ≤ n
  natCast_inj {m n : Nat} : (m : α) = (n : α) ↔ m = n

instance : LinearCoordinate Nat where
  le_trans := Nat.le_trans
  le_antisymm := Nat.le_antisymm
  lt_iff := Nat.lt_iff_le_and_ne
  placed _ := ⟨Nat.le_refl _, Nat.le_refl _⟩
  total _ _ := Nat.le_total _ _
  natCast_le := Iff.rfl
  natCast_inj := Iff.rfl

namespace Number

theorem less_natCast (a b : Nat) : (a : Number).less (b : Number) = decide (a < b) := by
  simp only [less, Rat.natCast_lt_natCast]

theorem less_irrefl (a : Number) : a.less a = false := by
  cases a <;> simp [less]

theorem less_trans {a b c : Number} (hab : a.less b = true) (hbc : b.less c = true) :
    a.less c = true := by
  cases a <;> cases b <;> cases c <;> simp_all [less]
  exact lt_trans hab hbc

theorem defined_of_less {a b : Number} (h : a.less b = true) :
    a ≠ .undefined ∧ b ≠ .undefined := by
  cases a <;> cases b <;> simp_all [less]

theorem less_trichotomy {a b : Number} (ha : a ≠ .undefined) (hb : b ≠ .undefined) :
    a.less b = true ∨ a = b ∨ b.less a = true := by
  cases a with
  | undefined => exact absurd rfl ha
  | infinite a => cases a <;> cases b <;> simp_all [less]
  | finite a =>
    cases b with
    | undefined => exact absurd rfl hb
    | infinite b => cases b <;> simp [less]
    | finite b => simpa [less] using lt_trichotomy a b

theorem le_iff {a b : Number} : a ≤ b ↔ a.less b = true ∨ a = b ∧ a ≠ .undefined := by
  have undefined : a.isUndefined = true ↔ a = .undefined := by cases a <;> simp [isUndefined]
  show a.notGreater b = true ↔ _
  rw [notGreater, Bool.or_eq_true, Bool.and_eq_true, beq_iff_eq, Bool.not_eq_true', ne_eq,
    ← undefined, Bool.not_eq_true]

theorem le_self_iff {a : Number} : a ≤ a ↔ a ≠ .undefined := by
  simp [le_iff, less_irrefl]

instance : LinearCoordinate Number where
  le_trans hab hbc := by
    rw [le_iff] at *
    rcases hab with ab | ⟨rfl, _⟩
    · rcases hbc with bc | ⟨rfl, _⟩
      · exact .inl (less_trans ab bc)
      · exact .inl ab
    · exact hbc
  le_antisymm := by
    intro a b hab hba
    rw [le_iff] at *
    rcases hab with ab | ⟨same, _⟩
    · rcases hba with ba | ⟨same, _⟩
      · have around := less_trans ab ba
        rw [less_irrefl] at around
        cases around
      · exact same.symm
    · exact same
  lt_iff := by
    intro a b
    rw [le_iff]
    constructor
    · intro lt
      refine ⟨.inl lt, ?_⟩
      rintro rfl
      exact Bool.eq_false_iff.mp (less_irrefl a) lt
    · rintro ⟨lt | ⟨same, _⟩, differ⟩
      · exact lt
      · exact absurd same differ
  placed h := by
    rw [le_self_iff, le_self_iff]
    rcases le_iff.mp h with lt | ⟨rfl, defined⟩
    · exact defined_of_less lt
    · exact ⟨defined, defined⟩
  total ha hb := by
    rw [le_self_iff] at ha hb
    simp only [le_iff]
    rcases less_trichotomy ha hb with lt | rfl | gt
    · exact .inl (.inl lt)
    · exact .inl (.inr ⟨rfl, ha⟩)
    · exact .inr (.inl gt)
  natCast_le := by
    intro m n
    rw [le_iff, less_natCast, natCast_eq, natCast_eq, finite.injEq, Rat.natCast_inj,
      decide_eq_true_eq, Nat.le_iff_lt_or_eq]
    simp
  natCast_inj := by
    intro m n
    rw [natCast_eq, natCast_eq, finite.injEq, Rat.natCast_inj]

end Number

namespace LinearCoordinate

variable {α : Type} [LT α] [LE α] [NatCast α] [LinearCoordinate α] {a b c : α}

theorem le_of_lt (h : a < b) : a ≤ b := (lt_iff.mp h).1

theorem lt_irrefl (a : α) : ¬a < a := fun h => (lt_iff.mp h).2 rfl

theorem not_lt_of_le (h : a ≤ b) : ¬b < a := by
  intro back
  obtain ⟨le, differ⟩ := lt_iff.mp back
  exact differ (le_antisymm le h)

theorem lt_of_lt_of_le (hab : a < b) (hbc : b ≤ c) : a < c := by
  refine lt_iff.mpr ⟨le_trans (le_of_lt hab) hbc, ?_⟩
  rintro rfl
  exact not_lt_of_le hbc hab

theorem lt_of_le_of_lt (hab : a ≤ b) (hbc : b < c) : a < c := by
  refine lt_iff.mpr ⟨le_trans hab (le_of_lt hbc), ?_⟩
  rintro rfl
  exact not_lt_of_le hab hbc

theorem lt_trans (hab : a < b) (hbc : b < c) : a < c := lt_of_lt_of_le hab (le_of_lt hbc)

theorem lt_of_not_le (ha : a ≤ a) (hb : b ≤ b) (h : ¬a ≤ b) : b < a := by
  refine lt_iff.mpr ⟨(total ha hb).resolve_left h, ?_⟩
  rintro rfl
  exact h ha

theorem le_of_not_lt (ha : a ≤ a) (hb : b ≤ b) (h : ¬a < b) : b ≤ a := by
  by_cases le : b ≤ a
  · exact le
  · exact absurd (lt_of_not_le hb ha le) h

theorem eq_iff_not_lt (ha : a ≤ a) (hb : b ≤ b) : a = b ↔ ¬a < b ∧ ¬b < a := by
  constructor
  · rintro rfl
    exact ⟨not_lt_of_le ha, not_lt_of_le ha⟩
  · intro ⟨ab, ba⟩
    exact le_antisymm (le_of_not_lt hb ha ba) (le_of_not_lt ha hb ab)

theorem natCast_lt {m n : Nat} : (m : α) < (n : α) ↔ m < n := by
  rw [lt_iff, natCast_le, ne_eq, natCast_inj, Nat.lt_iff_le_and_ne]

end LinearCoordinate
end Excerpt
