import Excerpt.Device
import Excerpt.Device.Transcript

/-! Readable markup: braces show where a style is set or reset. -/
namespace Excerpt

def Markup.ofCall : Call → Strip
  | .setStyle style => .ofString ("\x7b" ++ style.toText ++ "\x7d")
  | .write text => text
  | .resetStyle => .ofString "\x7b/\x7d"

namespace Device

/-- Collects markup. -/
def markup : Device Transcript where
  supportsColor := true
  accept transcript call := transcript.put (Markup.ofCall call)

end Device

def Document.markup (document : Document) : Except TextFault Strip :=
  Transcript.text? (Device.markup.render .empty document)

end Excerpt
