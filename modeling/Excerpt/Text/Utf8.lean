/-! Text as bytes. Encoding is the usual one; decoding accepts any bytes and
puts one replacement character for each longest run of bytes that starts a
character and cannot finish it. -/
namespace Excerpt.Utf8

def encodeChars (cs : List Char) : List UInt8 := cs.flatMap String.utf8EncodeChar

def encode (text : String) : List UInt8 := encodeChars text.toList

/-- A byte of a character that is not the first one. -/
def continues (byte : Nat) : Bool := 0x80 ≤ byte && byte < 0xC0

/-- Stands for bytes that are no character. -/
def replacement : Char := '\uFFFD'

/-- A character whose bytes are not all in: how many are still to come, the
bounds of the next one, and the bits read so far. -/
structure Pending where
  missing : Nat
  lower : Nat
  upper : Nat
  bits : Nat
  deriving DecidableEq, Repr

/-- The first byte of a character: what it completes, and what it leaves open. -/
def first (byte : Nat) : List Char × Option Pending :=
  if byte < 0x80 then ([Char.ofNat byte], none)
  else if 0xC2 ≤ byte ∧ byte ≤ 0xDF then ([], some ⟨1, 0x80, 0xBF, byte - 0xC0⟩)
  else if 0xE0 ≤ byte ∧ byte ≤ 0xEF then
    ([], some ⟨2, if byte = 0xE0 then 0xA0 else 0x80, if byte = 0xED then 0x9F else 0xBF,
      byte - 0xE0⟩)
  else if 0xF0 ≤ byte ∧ byte ≤ 0xF4 then
    ([], some ⟨3, if byte = 0xF0 then 0x90 else 0x80, if byte = 0xF4 then 0x8F else 0xBF,
      byte - 0xF0⟩)
  else ([replacement], none)

/-- A byte that may not follow ends the open character and starts the next one. -/
def step (state : Option Pending) (byte : Nat) : List Char × Option Pending :=
  match state with
  | none => first byte
  | some pending =>
    if pending.lower ≤ byte ∧ byte ≤ pending.upper then
      let bits := pending.bits * 64 + (byte - 0x80)
      if pending.missing = 1 then ([Char.ofNat bits], none)
      else ([], some ⟨pending.missing - 1, 0x80, 0xBF, bits⟩)
    else
      let (completed, state) := first byte
      (replacement :: completed, state)

def decodeFrom : Option Pending → List UInt8 → List Char
  | none, [] => []
  | some _, [] => [replacement]
  | state, byte :: bytes =>
    let (completed, state) := step state byte.toNat
    completed ++ decodeFrom state bytes

def decode (bytes : List UInt8) : String := String.ofList (decodeFrom none bytes)

@[simp] theorem encodeChars_append (a b : List Char) :
    encodeChars (a ++ b) = encodeChars a ++ encodeChars b := List.flatMap_append

end Excerpt.Utf8
