import Excerpt.Text.Columns
import Mathlib.Data.Nat.Cast.Basic

/-! Display columns in natural numbers: every character takes at least one, and
what a text becomes without its tabs is as long as the columns it takes up. -/
namespace Excerpt.Columns

variable (tabWidth : Nat)

theorem advance_eq (column : Nat) (c : Char) :
    advance tabWidth column c =
      if c = '\t' then column + (tabWidth - column % tabWidth) else column + 1 := rfl

theorem lt_advance {tabWidth : Nat} (pos : 0 < tabWidth) (column : Nat) (c : Char) :
    column < advance tabWidth column c := by
  have inside := Nat.mod_lt column pos
  rw [advance_eq]
  split <;> omega

theorem le_endOf {tabWidth : Nat} (pos : 0 < tabWidth) (column : Nat) (cs : List Char) :
    column + cs.length ≤ endOf tabWidth column cs := by
  induction cs generalizing column with
  | nil => exact Nat.le_refl _
  | cons c cs ih =>
    have step := lt_advance pos column c
    have rest := ih (advance tabWidth column c)
    rw [endOf, List.length_cons]
    omega

theorem length_expandFrom {tabWidth : Nat} (pos : 0 < tabWidth) (column : Nat) (cs : List Char) :
    column + (expandFrom tabWidth column cs).chars.length = endOf tabWidth column cs := by
  induction cs generalizing column with
  | nil => rfl
  | cons c cs ih =>
    have step := lt_advance pos column c
    have rest := ih (advance tabWidth column c)
    rw [endOf, expandFrom]
    split
    · simp only [Strip.chars_push, Coordinate.toCount_nat, List.length_append,
        List.length_replicate]
      omega
    · rename_i plain
      have one : advance tabWidth column c = column + 1 := if_neg plain
      simp only [Strip.chars_push, List.length_append, List.length_replicate]
      omega

theorem width_eq (text : String) : width tabWidth text = endOf tabWidth 0 text.toList :=
  Nat.sub_zero _

theorem width_append (a b : String) :
    width tabWidth (a ++ b) = endOf tabWidth (width tabWidth a) b.toList := by
  rw [width_eq, width_eq, String.toList_append, endOf_append]

/-- What a text becomes behind another one ends where both end together. -/
theorem width_add_length {tabWidth : Nat} (pos : 0 < tabWidth) (a b : String) :
    width tabWidth a + (expandFrom tabWidth (width tabWidth a) b.toList).chars.length =
      width tabWidth (a ++ b) := by
  rw [width_append]
  exact length_expandFrom pos _ _

theorem width_lt_append {tabWidth : Nat} (pos : 0 < tabWidth) (a : String) {b : String}
    (filled : b.toList ≠ []) : width tabWidth a < width tabWidth (a ++ b) := by
  have steps := le_endOf pos (width tabWidth a) b.toList
  have some_char := List.length_pos_iff.mpr filled
  rw [width_append]
  omega

/-- A line shows the text of its parts side by side, each from the column on in which
the one before it ends. -/
theorem chars_expand_append (a b : String) :
    (expand tabWidth (a ++ b)).chars =
      (expand tabWidth a).chars ++ (expandFrom tabWidth (width tabWidth a) b.toList).chars := by
  rw [expand, String.toList_append, expandFrom_append, Strip.chars_append, width_eq]
  rfl

theorem length_expand {tabWidth : Nat} (pos : 0 < tabWidth) (text : String) :
    (expand tabWidth text).chars.length = width tabWidth text := by
  rw [width_eq, ← length_expandFrom pos 0 text.toList, Nat.zero_add]
  rfl

end Excerpt.Columns
