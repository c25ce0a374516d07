import Excerpt.Coordinate
import Excerpt.Text.Strip
import Excerpt.Text.Utf16

/-! Display columns. Every code point takes one column except a tab, which goes
on to the next multiple of the tab width. Columns count from 0 here. -/
namespace Excerpt.Columns

open Utf16 (Point)

variable {α : Type} [Add α] [Sub α] [Mod α] [OfNat α 0] [OfNat α 1] [Coordinate α]

/-- The column after a character that stands at `column`. -/
def advance (tabWidth column : α) (c : Char) : α :=
  if c = '\t' then column + (tabWidth - column % tabWidth) else column + 1

/-- The column after some characters of which the first stands at `column`. -/
def endOf (tabWidth : α) : α → List Char → α
  | column, [] => column
  | column, c :: cs => endOf tabWidth (advance tabWidth column c) cs

/-- The columns a text takes up when it starts at `start`. -/
def widthFrom (tabWidth start : α) (text : String) : α := endOf tabWidth start text.toList - start

/-- The columns a text takes up at the start of a line. -/
def width (tabWidth : α) (text : String) : α := widthFrom tabWidth 0 text

/-- Each tab becomes the blanks it takes up. -/
def expandFrom (tabWidth : α) : α → List Char → Strip
  | _, [] => .empty
  | column, c :: cs =>
    let next := advance tabWidth column c
    let rest := expandFrom tabWidth next cs
    if c = '\t' then rest.push ' ' (Coordinate.toCount (next - column)) else rest.push c 1

/-- A line with its tabs expanded. -/
def expand (tabWidth : α) (text : String) : Strip := expandFrom tabWidth 0 text.toList

/-- Why tabs cannot be expanded from a column on, behind some UTF-16 units that
are there already. -/
def faultFrom? (tabWidth : α) (units : Nat) : α → List Char → Option TextFault
  | _, [] => none
  | column, c :: cs =>
    let next := advance tabWidth column c
    let fault := if c = '\t' then Coordinate.fault? (next - column) else none
    let units :=
      units + if c = '\t' then Coordinate.toCount (next - column) else Text.charUnits c
    match fault with
    | some fault => some fault
    | none => if units ≤ Text.longest then faultFrom? tabWidth units next cs else some .tooLong

def fault? (tabWidth : α) (text : String) : Option TextFault :=
  faultFrom? tabWidth 0 0 text.toList

/-- The line with its tabs expanded, if it can be built. -/
def expand? (tabWidth : α) (text : String) : Except TextFault Strip :=
  match fault? tabWidth text with
  | some fault => .error fault
  | none => .ok (expand tabWidth text)

/-- The columns that any units take up when they start at `start`. A half that stands alone takes
up one, as a character does. -/
def unitsWidthFrom (tabWidth start : α) (text : Utf16.Units) : α :=
  endOf tabWidth start (Utf16.decode text) - start

/-- Each tab becomes the blanks it takes up; all other code points stay. -/
def expandPointsFrom (tabWidth : α) : α → List Point → List Point
  | _, [] => []
  | column, p :: ps =>
    let next := advance tabWidth column p.toChar
    let shown :=
      if p.toChar = '\t' then List.replicate (Coordinate.toCount (next - column)) (.char ' ')
      else [p]
    shown ++ expandPointsFrom tabWidth next ps

/-- Any units with their tabs expanded. -/
def expandUnits (tabWidth : α) (text : Utf16.Units) : Utf16.Units :=
  (expandPointsFrom tabWidth 0 (Utf16.points text)).flatMap Point.units

/-- The units with their tabs expanded, if they can be built. A half has as many units as the
character that is read for it. -/
def expandUnits? (tabWidth : α) (text : Utf16.Units) : Except TextFault Utf16.Units :=
  match faultFrom? tabWidth 0 0 (Utf16.decode text) with
  | some fault => .error fault
  | none => .ok (expandUnits tabWidth text)

omit [OfNat α 0] [Coordinate α] in
theorem endOf_append (tabWidth start : α) (a b : List Char) :
    endOf tabWidth start (a ++ b) = endOf tabWidth (endOf tabWidth start a) b := by
  induction a generalizing start with
  | nil => rfl
  | cons c cs ih => exact ih _

omit [OfNat α 0] in
theorem expandFrom_append (tabWidth start : α) (a b : List Char) :
    expandFrom tabWidth start (a ++ b) =
      expandFrom tabWidth start a ++ expandFrom tabWidth (endOf tabWidth start a) b := by
  induction a generalizing start with
  | nil => exact (Strip.empty_append _).symm
  | cons c cs ih =>
    simp only [List.cons_append, expandFrom, endOf, ih]
    split <;> exact (Strip.push_append ..).symm

/-- At natural columns a line can be built when what it becomes is not too long. -/
theorem faultFrom?_eq_none_iff (tabWidth start units : Nat) (cs : List Char)
    (h : units ≤ Text.longest) :
    faultFrom? tabWidth units start cs = none ↔
      units + (expandFrom tabWidth start cs).units ≤ Text.longest := by
  induction cs generalizing start units with
  | nil => simpa [faultFrom?, expandFrom] using h
  | cons c cs ih =>
    have blank : Text.charUnits ' ' = 1 := rfl
    rw [faultFrom?, expandFrom]
    by_cases tab : c = '\t'
    · simp only [if_pos tab, Coordinate.toCount_nat, Strip.units_push, blank, Nat.mul_one,
        ← Nat.add_assoc, Coordinate.fault?]
      split
      · rename_i found
        split at found
        · simp at found
        · simp only [reduceCtorEq, false_iff]; omega
      · split
        · rename_i fits
          exact ih _ _ fits
        · simp only [reduceCtorEq, false_iff]; omega
    · simp only [if_neg tab, Strip.units_push, Nat.one_mul, ← Nat.add_assoc]
      split
      · rename_i fits
        exact ih _ _ fits
      · simp only [reduceCtorEq, false_iff]; omega

theorem fault?_eq_none_iff (tabWidth : Nat) (text : String) :
    fault? tabWidth text = none ↔ (expand tabWidth text).units ≤ Text.longest := by
  rw [fault?, faultFrom?_eq_none_iff _ _ _ _ (Nat.zero_le _), Nat.zero_add, expand]

end Excerpt.Columns
