import Excerpt.Text.Units

/-! Text as UTF-16 units, as a caller hands it in. A character beyond the first 65536 code points
makes two halves. Whatever units there are, they are a text: a half that stands alone is a code
point too, and is replaced where a character is wanted. -/
namespace Excerpt.Utf16

abbrev Units := List UInt16

def encodeChar (c : Char) : Units :=
  if c.toNat < 0x10000 then [.ofNat c.toNat]
  else
    [.ofNat (0xD800 + (c.toNat - 0x10000) / 0x400), .ofNat (0xDC00 + (c.toNat - 0x10000) % 0x400)]

def encode (cs : List Char) : Units := cs.flatMap encodeChar

def isHighHalf (unit : UInt16) : Bool := 0xD800 ≤ unit.toNat && unit.toNat < 0xDC00

def isLowHalf (unit : UInt16) : Bool := 0xDC00 ≤ unit.toNat && unit.toNat < 0xE000

def joinHalves (high low : UInt16) : Char :=
  Char.ofNat (0x10000 + (high.toNat - 0xD800) * 0x400 + (low.toNat - 0xDC00))

/-- A code point of a text. -/
inductive Point where
  | char (c : Char)
  /-- A half that stands alone. -/
  | half (unit : UInt16)
  deriving DecidableEq, Repr

namespace Point

def units : Point → Units
  | char c => encodeChar c
  | half unit => [unit]

/-- The character that is read. -/
def toChar : Point → Char
  | char c => c
  | half _ => '\uFFFD'

end Point

/-- The code point of a unit that is not joined with another one. -/
def single (unit : UInt16) : Point :=
  if isHighHalf unit || isLowHalf unit then .half unit else .char (Char.ofNat unit.toNat)

def points : Units → List Point
  | [] => []
  | [unit] => [single unit]
  | unit :: next :: rest =>
    if isHighHalf unit && isLowHalf next then .char (joinHalves unit next) :: points rest
    else single unit :: points (next :: rest)

/-- The characters that are read. -/
def decode (text : Units) : List Char := (points text).map Point.toChar

/-- No half stands alone. -/
def WellFormed (text : Units) : Prop := ∀ unit, .half unit ∉ points text

/-- A half at the end of a text is joined with one that another text starts with. -/
def Joins (front back : Units) : Prop :=
  ∃ high ∈ front.getLast?, ∃ low ∈ back.head?, isHighHalf high = true ∧ isLowHalf low = true

/-- No character is cut in two where one of the texts ends. -/
def Uncut (texts : List Units) : Prop :=
  ∀ front back, front ++ back = texts → ¬Joins front.flatten back.flatten

/-- No half is a character. -/
theorem toNat_bounds (c : Char) :
    c.toNat < 0xD800 ∨ 0xDFFF < c.toNat ∧ c.toNat < 0x110000 := c.valid

theorem points_cons {unit : UInt16} {rest : Units}
    (apart : isHighHalf unit = false ∨ ∀ low ∈ rest.head?, isLowHalf low = false) :
    points (unit :: rest) = single unit :: points rest := by
  cases rest with
  | nil => rfl
  | cons next rest =>
    rw [points, if_neg]
    intro joined
    rw [Bool.and_eq_true] at joined
    rcases apart with high | low
    · rw [joined.1] at high
      cases high
    · rw [low next rfl] at joined
      cases joined.2

/-! ## Texts of characters -/

theorem toNat_ofNat {n : Nat} (h : n < 0x10000) : (UInt16.ofNat n).toNat = n :=
  UInt16.toNat_ofNat_of_lt h

theorem points_encodeChar (c : Char) (rest : Units) :
    points (encodeChar c ++ rest) = .char c :: points rest := by
  have bounds := toNat_bounds c
  rw [encodeChar]
  split
  · rename_i short
    have high : isHighHalf (.ofNat c.toNat) = false := by
      simp only [isHighHalf, toNat_ofNat short, Bool.and_eq_false_iff, decide_eq_false_iff_not]
      omega
    have low : isLowHalf (.ofNat c.toNat) = false := by
      simp only [isLowHalf, toNat_ofNat short, Bool.and_eq_false_iff, decide_eq_false_iff_not]
      omega
    rw [List.singleton_append, points_cons (.inl high), single, high, low, toNat_ofNat short,
      Char.ofNat_toNat]
    rfl
  · rename_i long
    have first := toNat_ofNat (n := 0xD800 + (c.toNat - 0x10000) / 0x400) (by omega)
    have second := toNat_ofNat (n := 0xDC00 + (c.toNat - 0x10000) % 0x400) (by omega)
    have high : isHighHalf (.ofNat (0xD800 + (c.toNat - 0x10000) / 0x400)) = true := by
      simp only [isHighHalf, first, Bool.and_eq_true, decide_eq_true_eq]
      omega
    have low : isLowHalf (.ofNat (0xDC00 + (c.toNat - 0x10000) % 0x400)) = true := by
      simp only [isLowHalf, second, Bool.and_eq_true, decide_eq_true_eq]
      omega
    have whole : 0x10000 + (0xD800 + (c.toNat - 0x10000) / 0x400 - 0xD800) * 0x400 +
        (0xDC00 + (c.toNat - 0x10000) % 0x400 - 0xDC00) = c.toNat := by
      omega
    rw [List.cons_append, List.singleton_append, points, high, low, joinHalves, first, second,
      whole, Char.ofNat_toNat]
    rfl

theorem points_encode (cs : List Char) : points (encode cs) = cs.map .char := by
  induction cs with
  | nil => rfl
  | cons c cs ih =>
    have step : encode (c :: cs) = encodeChar c ++ encode cs := List.flatMap_cons
    rw [step, points_encodeChar, ih, List.map_cons]

@[simp] theorem decode_encode (cs : List Char) : decode (encode cs) = cs := by
  rw [decode, points_encode, List.map_map]
  exact List.map_id cs

end Excerpt.Utf16
