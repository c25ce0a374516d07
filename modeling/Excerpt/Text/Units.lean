import Excerpt.Text.Lines

/-! The length of a text in UTF-16 units: two for a character beyond the first
65536 code points, one for all others. No text has more than `longest` units. -/
namespace Excerpt.Text

def charUnits (c : Char) : Nat := if c.toNat < 0x10000 then 1 else 2

def unitsOf (cs : List Char) : Nat := cs.foldr (fun c units => charUnits c + units) 0

def units16 (text : String) : Nat := unitsOf text.toList

/-- The units of the longest text there is. -/
def longest : Nat := 536870888

/-- Spaces go behind a text until it has the given number of units. -/
def padEnd (width : Nat) (text : String) : String := text ++ spaces (width - units16 text)

theorem charUnits_pos (c : Char) : 0 < charUnits c := by
  unfold charUnits
  split <;> decide

theorem length_le_unitsOf (cs : List Char) : cs.length ≤ unitsOf cs := by
  induction cs with
  | nil => exact Nat.le_refl 0
  | cons c cs ih =>
    have own := charUnits_pos c
    rw [unitsOf] at ih ⊢
    rw [List.length_cons, List.foldr_cons]
    omega

@[simp] theorem unitsOf_append (a b : List Char) : unitsOf (a ++ b) = unitsOf a + unitsOf b := by
  induction a with
  | nil => simp [unitsOf]
  | cons c cs ih =>
    simp only [unitsOf, List.cons_append, List.foldr_cons] at ih ⊢
    rw [ih, Nat.add_assoc]

@[simp] theorem unitsOf_replicate (count : Nat) (c : Char) :
    unitsOf (List.replicate count c) = count * charUnits c := by
  induction count with
  | zero => simp [unitsOf]
  | succ n ih =>
    rw [List.replicate_succ, Nat.succ_mul, ← ih, Nat.add_comm]
    rfl

end Excerpt.Text
