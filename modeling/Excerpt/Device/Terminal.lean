import Excerpt.Ansi
import Excerpt.Device
import Excerpt.Device.Transcript

/-! Terminals: each written text is painted with the current style and goes to
a sink, unless painting makes it too long. -/
namespace Excerpt

/-- What a terminal can show. All levels but `none` use the same sequences here. -/
inductive ColorLevel where
  | none
  | basic
  | extended
  | full
  deriving DecidableEq, Repr

namespace ColorLevel

def toNat : ColorLevel → Nat
  | none => 0
  | basic => 1
  | extended => 2
  | full => 3

def ofNat? (n : Nat) : Option ColorLevel := [none, basic, extended, full][n]?

end ColorLevel

/-- A place with states `σ` that takes painted texts `τ`. -/
structure Sink (σ : Type) (τ : Type := Strip) where
  put : σ → τ → σ × Option Fault

/-- Collects text. -/
def Sink.text : Sink Transcript where
  put := Transcript.put

/-- The style in force on a terminal, and the state of its sink. -/
structure Terminal (σ : Type) where
  style : Option Style
  sink : σ

namespace Terminal

/-- A terminal without a style. -/
def fresh {σ : Type} (sink : σ) : Terminal σ := ⟨none, sink⟩

def painted (level : ColorLevel) (style : Option Style) (text : Strip) : Strip :=
  match level, style with
  | .none, _ => text
  | _, none => text
  | _, some style => Ansi.paint style.attributes text

end Terminal

/-- A terminal for texts `τ`, whatever painting makes of them. -/
def Device.painter {σ τ : Type} (supportsColor : Bool) (paint : Option Style → τ → τ)
    (fits : τ → Bool) (sink : Sink σ τ) : Device (Terminal σ) (Call τ) where
  supportsColor := supportsColor
  accept terminal call :=
    match call with
    | .setStyle style => ({ terminal with style := some style }, none)
    | .resetStyle => ({ terminal with style := none }, none)
    | .write text =>
      let painted := paint terminal.style text
      if fits painted then
        let (state, fault) := sink.put terminal.sink painted
        ({ terminal with sink := state }, fault)
      else (terminal, some (.ofText .tooLong))

def Device.terminal {σ : Type} (level : ColorLevel) (sink : Sink σ) : Device (Terminal σ) :=
  painter (level != .none) (Terminal.painted level) Strip.fits sink

namespace Document

/-- The text a document leaves on a terminal that collects it, if there is a
text that long. -/
def onTerminal (document : Document) (level : ColorLevel) : Except TextFault Strip :=
  let (terminal, fault) := (Device.terminal level Sink.text).render (.fresh .empty) document
  Transcript.text? (terminal.sink, fault)

def plain (document : Document) : Except TextFault Strip := document.onTerminal .none

def ansi (document : Document) : Except TextFault Strip := document.onTerminal .basic

end Document
end Excerpt
