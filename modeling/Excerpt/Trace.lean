import Excerpt.Run
import Excerpt.Text.Extent

/-! Traces: the calls that put a document on a device. The style is switched
only where it changes, and none is left active at the end. -/
namespace Excerpt

/-- What a device of texts `τ` can be asked to do. -/
inductive Call (τ : Type := Strip) where
  | setStyle (style : Style)
  | write (text : τ)
  | resetStyle
  deriving DecidableEq, Repr

/-- The runs joined, if each of them can be a text then. -/
def Run.coalesce? (runs : List Run) : Except TextFault (List Run) :=
  if (coalesce runs).all fun run => run.text.fits then .ok (coalesce runs) else .error .tooLong

namespace Trace

/-- The calls that leave no style active. -/
def reset (active : Option Style) : List Call := if active.isSome then [.resetStyle] else []

/-- The calls for some runs on a device with colors on which a style is active. -/
def styledFrom (active : Option Style) : List Run → List Call
  | [] => reset active
  | ⟨none, text⟩ :: runs => reset active ++ .write text :: styledFrom none runs
  | ⟨some style, text⟩ :: runs =>
    if SameStyle active (some style) then .write text :: styledFrom active runs
    else .setStyle style :: .write text :: styledFrom (some style) runs

/-- The calls for some runs on a device without colors. -/
def plain (runs : List Run) : List Call := runs.map fun run => .write run.text

/-- The calls for some runs on a device with or without colors. -/
def ofRuns (supportsColor : Bool) (runs : List Run) : List Call :=
  if supportsColor then styledFrom none runs else plain runs

end Trace

namespace Document

def trace (document : Document) (supportsColor : Bool) : List Call :=
  Trace.ofRuns supportsColor (Run.coalesce document.runs)

/-- The calls for a document, if its runs can be joined. -/
def trace? (document : Document) (supportsColor : Bool) : Except TextFault (List Call) :=
  (Run.coalesce? document.runs).map (Trace.ofRuns supportsColor)

theorem trace?_eq_ok {document : Document} (supportsColor : Bool)
    (h : ∀ run ∈ Run.coalesce document.runs, run.text.fits = true) :
    document.trace? supportsColor = .ok (document.trace supportsColor) := by
  rw [trace?, Run.coalesce?, if_pos (List.all_eq_true.mpr h)]
  rfl

theorem trace?_eq_error {document : Document} (supportsColor : Bool) {run : Run}
    (joined : run ∈ Run.coalesce document.runs) (h : run.text.fits = false) :
    document.trace? supportsColor = .error .tooLong := by
  rw [trace?, Run.coalesce?, if_neg]
  · rfl
  · intro all
    rw [List.all_eq_true.mp all run joined] at h
    cases h

end Document
end Excerpt
