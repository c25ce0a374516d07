import Excerpt.Trace
import Excerpt.Fault

/-! Devices take the calls of a trace one by one. A document of which a joined
run is too long for a text is refused before the first call. -/
namespace Excerpt

/-- A device with states `σ` for calls `κ`. A call that fails may have changed the state. -/
structure Device (σ : Type) (κ : Type := Call) where
  supportsColor : Bool
  accept : σ → κ → σ × Option Fault

namespace Device

/-- Makes some calls up to the first that fails. -/
def feed {σ κ : Type} (device : Device σ κ) (state : σ) : List κ → σ × Option Fault
  | [] => (state, none)
  | call :: calls =>
    match device.accept state call with
    | (state, none) => device.feed state calls
    | (state, some fault) => (state, some fault)

def render {σ : Type} (device : Device σ) (state : σ) (document : Document) : σ × Option Fault :=
  match document.trace? device.supportsColor with
  | .ok calls => device.feed state calls
  | .error fault => (state, some (.ofText fault))

theorem render_eq_feed {σ : Type} (device : Device σ) (state : σ) {document : Document}
    (h : ∀ run ∈ Run.coalesce document.runs, run.text.fits = true) :
    device.render state document = device.feed state (document.trace device.supportsColor) := by
  rw [render, Document.trace?_eq_ok _ h]

end Device
end Excerpt
