import Excerpt.Fault

/-! Transcripts: text that is collected in chunks. A chunk is refused when there
is no text that long, and what has been collected stays as it is. -/
namespace Excerpt

structure Transcript where
  /-- The last chunk comes first. -/
  chunks : List Strip
  units : Nat
  units_eq : units = chunks.foldr (fun chunk units => chunk.units + units) 0
  units_le : units ≤ Text.longest

namespace Transcript

def empty : Transcript := ⟨[], 0, rfl, Nat.zero_le _⟩

def put (t : Transcript) (chunk : Strip) : Transcript × Option Fault :=
  if h : chunk.units + t.units ≤ Text.longest then
    (⟨chunk :: t.chunks, chunk.units + t.units, by rw [t.units_eq]; rfl, h⟩, none)
  else (t, some (.ofText .tooLong))

def text (t : Transcript) : Strip := .join t.chunks.reverse

/-- The text, unless something was refused. -/
def text? : Transcript × Option Fault → Except TextFault Strip
  | (t, none) => .ok t.text
  | (_, some _) => .error .tooLong

@[simp] theorem text_empty : empty.text = .empty := rfl

theorem put_eq_none_iff (t : Transcript) (chunk : Strip) :
    (t.put chunk).2 = none ↔ chunk.units + t.units ≤ Text.longest := by
  by_cases h : chunk.units + t.units ≤ Text.longest <;> simp [put, h]

theorem text_put (t : Transcript) (chunk : Strip) :
    (t.put chunk).1.text = if (t.put chunk).2 = none then t.text ++ chunk else t.text := by
  by_cases h : chunk.units + t.units ≤ Text.longest
  · simp only [put, dif_pos h]
    exact Strip.ext_chars (by simp [text])
  · simp [put, h]

theorem units_text (t : Transcript) : t.text.units = t.units := by
  rw [t.units_eq, text]
  induction t.chunks with
  | nil => rfl
  | cons chunk chunks ih =>
    rw [List.foldr_cons, ← ih, Strip.units_eq, Strip.units_eq, Strip.units_eq]
    simp [Nat.add_comm]

end Transcript
end Excerpt
