/-! Digits of numerals in bases up to sixteen. -/
namespace Excerpt

/-- The value of a digit; letters of either case follow the nine. -/
def digit? (c : Char) : Option Nat :=
  if c.isDigit then some (c.toNat - '0'.toNat)
  else if 'a' ≤ c ∧ c ≤ 'f' then some (c.toNat - 'a'.toNat + 10)
  else if 'A' ≤ c ∧ c ≤ 'F' then some (c.toNat - 'A'.toNat + 10)
  else none

/-- The number that some digits of a base make, the first of which counts most. -/
def ofDigits? (base : Nat) (cs : List Char) : Option Nat :=
  cs.foldl
    (fun value c =>
      match value, digit? c with
      | some value, some digit => if digit < base then some (value * base + digit) else none
      | _, _ => none)
    (some 0)

end Excerpt
