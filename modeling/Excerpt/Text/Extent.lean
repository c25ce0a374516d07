import Excerpt.Decimal.Text
import Excerpt.Text.Strip

/-! Extents of texts: a character is repeated a number of times, which may be
refused, and so may a strip that is to become a text. -/
namespace Excerpt

/-- Why a text cannot be built. -/
inductive TextFault where
  /-- A character is to be repeated less than no times, or without end. -/
  | badCount (count : Number)
  /-- There would be more than `Text.longest` units. -/
  | tooLong
  deriving DecidableEq, Repr

def TextFault.message : TextFault → String
  | badCount count => "Invalid count value: " ++ count.toText
  | tooLong => "Invalid string length"

/-- The strip, if there is a text that long. -/
def Strip.fitting? (s : Strip) : Except TextFault Strip :=
  if s.fits then .ok s else .error .tooLong

end Excerpt
