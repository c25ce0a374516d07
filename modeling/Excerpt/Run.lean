import Excerpt.Document

/-! Runs: stretches of text under one style. A document is read as runs in
order, and neighbouring runs of one style are joined. -/
namespace Excerpt

structure Run where
  style : Option Style
  text : Strip
  deriving DecidableEq, Repr

mutual

def Node.runsUnder (style : Option Style) : Node → List Run
  | .text value => [⟨style, value⟩]
  | .styled inner children => Document.runsUnder (some inner) children

def Document.runsUnder (style : Option Style) : List Node → List Run
  | [] => []
  | node :: nodes => Node.runsUnder style node ++ Document.runsUnder style nodes

end

/-- One run per text node. -/
def Document.runs (document : Document) : List Run := Document.runsUnder none document

namespace Run

/-- Puts a run in front of runs that are joined already. -/
def joinFront (run : Run) (joined : List Run) : List Run :=
  if run.text.isEmpty then joined
  else
    match joined with
    | next :: rest =>
      if SameStyle run.style next.style then ⟨run.style, run.text ++ next.text⟩ :: rest
      else run :: next :: rest
    | [] => [run]

/-- Joins neighbouring runs of one style, which keep the first one's form of it,
and drops empty ones. -/
def coalesce : List Run → List Run
  | [] => []
  | run :: runs => joinFront run (coalesce runs)

/-- The characters of a run, each with its style. -/
def cells (run : Run) : List (Char × Option Style) := run.text.chars.map (·, run.style)

end Run

theorem Document.runsUnder_append (style : Option Style) (a b : Document) :
    Document.runsUnder style (a ++ b) =
      Document.runsUnder style a ++ Document.runsUnder style b := by
  induction a with
  | nil => rfl
  | cons node nodes ih => simp [Document.runsUnder, ih]

end Excerpt
