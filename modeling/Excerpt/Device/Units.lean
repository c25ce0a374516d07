import Excerpt.Device.Descriptor
import Excerpt.Text.Utf16

/-! Devices that take texts of any units. Each text is painted alone; what is collected are the
units themselves, while a descriptor is handed the characters that are read in each text alone. -/
namespace Excerpt

namespace Utf16

/-- Whether there is a text that long. -/
def fits (text : Units) : Bool := text.length ≤ Text.longest

/-- The bytes of the characters that are read. -/
def bytes (text : Units) : List UInt8 := Utf8.encodeChars (decode text)

end Utf16

/-- Collects units. -/
def Sink.units : Sink Utf16.Units Utf16.Units where
  put held chunk :=
    if Utf16.fits (held ++ chunk) then (held ++ chunk, none) else (held, some (.ofText .tooLong))

/-- A terminal for texts of any units. What painting at a level makes of a text is left open. -/
def Device.unitsTerminal {σ : Type} (level : ColorLevel)
    (paint : ColorLevel → Option Style → Utf16.Units → Utf16.Units) (sink : Sink σ Utf16.Units) :
    Device (Terminal σ) (Call Utf16.Units) :=
  painter (level != .none) (paint level) Utf16.fits sink

end Excerpt
