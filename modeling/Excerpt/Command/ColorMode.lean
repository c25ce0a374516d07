import Excerpt.Device.Terminal

/-! Color modes. -/
namespace Excerpt

inductive ColorMode where
  | auto | always | never
  deriving DecidableEq, Repr

namespace ColorMode

def all : List ColorMode := [auto, always, never]

def name : ColorMode → String
  | auto => "auto"
  | always => "always"
  | never => "never"

def ofName? (name : String) : Option ColorMode := all.find? (·.name == name)

/-- The level of a mode on a terminal that supports `detected` by itself. -/
def level (mode : ColorMode) (detected : ColorLevel) : ColorLevel :=
  match mode, detected with
  | never, _ => .none
  | always, .none => .basic
  | always, detected => detected
  | auto, detected => detected

end ColorMode
end Excerpt
