import Excerpt.Text.Extent

/-! Why a layout cannot be built, or a report of it. -/
namespace Excerpt

/-- The most things that are compared or put together at once. It stands for the room on the stack
of an engine, which no text fixes and another engine, or a deeper call, may have more or less of.
No general result rests on the number. -/
def mostAtOnce : Nat := 124900

inductive LayoutFault where
  | text (fault : TextFault)
  /-- There are more than `mostAtOnce` connectors or lines of labels, or parts of a report. -/
  | tooManyAtOnce
  /-- More lines would be shown than can be held. -/
  | tooManyShown
  deriving DecidableEq, Repr

def LayoutFault.message : LayoutFault → String
  | text fault => fault.message
  | tooManyAtOnce => "Maximum call stack size exceeded"
  | tooManyShown => "Set maximum size exceeded"

end Excerpt
