import Excerpt.Number.Nearest

/-! Arithmetic in binary64: the exact result is rounded to the nearest number.
Numbers are ordered by their values, and nothing is less than, equal in order to
or greater than what is undefined. -/
namespace Excerpt.Number

def add : Number → Number → Number
  | .finite a, .finite b => nearest (a + b)
  | .finite _, .infinite negative | .infinite negative, .finite _ => .infinite negative
  | .infinite a, .infinite b => if a = b then .infinite a else .undefined
  | _, _ => .undefined

def negate : Number → Number
  | .finite value => .finite (-value)
  | .infinite negative => .infinite !negative
  | .undefined => .undefined

/-- A value without its fraction. -/
def truncate (value : Rat) : Int := if value < 0 then -(-value).floor else value.floor

/-- What a division leaves when its quotient is truncated. It is exact, and has
the sign of what is divided. -/
def remainder : Number → Number → Number
  | .finite a, .finite b => if b = 0 then .undefined else .finite (a - b * truncate (a / b))
  | .finite a, .infinite _ => .finite a
  | _, _ => .undefined

def isUndefined : Number → Bool
  | .undefined => true
  | _ => false

def notGreater (a b : Number) : Bool := a.less b || (a == b && !a.isUndefined)

instance : Add Number := ⟨add⟩

instance : Sub Number := ⟨fun a b => add a (negate b)⟩

instance : Mod Number := ⟨remainder⟩

instance : LT Number := ⟨fun a b => a.less b = true⟩

instance : LE Number := ⟨fun a b => a.notGreater b = true⟩

instance : DecidableLT Number := fun a b => inferInstanceAs (Decidable (a.less b = true))

instance : DecidableLE Number := fun a b => inferInstanceAs (Decidable (a.notGreater b = true))

/-- An undefined argument makes the greater and the lesser one undefined. -/
instance : Max Number :=
  ⟨fun a b => if a.isUndefined || b.isUndefined then .undefined else if a < b then b else a⟩

instance : Min Number :=
  ⟨fun a b => if a.isUndefined || b.isUndefined then .undefined else if b < a then b else a⟩

instance (n : Nat) : OfNat Number n := ⟨(n : Number)⟩

end Excerpt.Number
