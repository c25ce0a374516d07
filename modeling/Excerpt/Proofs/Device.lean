import Excerpt.Device.Recorder

/-! What a device is handed. A document is put on a device by the calls of its trace, up
to the first that fails; a document with a joined run that is too long for a text is
refused before the first of them. -/
namespace Excerpt

/-- Each of the joined runs can be a text. -/
def Document.Fits (document : Document) : Prop :=
  ∀ run ∈ Run.coalesce document.runs, run.text.fits = true

instance (document : Document) : Decidable document.Fits :=
  inferInstanceAs (Decidable (∀ run ∈ _, _))

theorem Document.exists_long_run {document : Document} (h : ¬document.Fits) :
    ∃ run ∈ Run.coalesce document.runs, Text.longest < run.text.units := by
  obtain ⟨run, refused⟩ := Classical.not_forall.mp h
  obtain ⟨joined, long⟩ := Classical.not_imp.mp refused
  exact ⟨run, joined, Nat.lt_of_not_le fun short => long (decide_eq_true short)⟩

namespace Device

variable {σ : Type} (device : Device σ) (state : σ) {document : Document}

theorem render_of_fits (h : document.Fits) :
    device.render state document = device.feed state (document.trace device.supportsColor) :=
  device.render_eq_feed state h

theorem render_of_not_fits (h : ¬document.Fits) :
    device.render state document = (state, some (.ofText .tooLong)) := by
  obtain ⟨run, h⟩ := Classical.not_forall.mp h
  obtain ⟨joined, long⟩ := Classical.not_imp.mp h
  rw [render, Document.trace?_eq_error _ joined (Bool.not_eq_true _ ▸ long)]

/-- A recorder that does not fail has taken every call. -/
theorem feed_recorder (supportsColor : Bool) (taken calls : List Call) :
    (recorder supportsColor none).feed taken calls = (taken ++ calls, none) := by
  induction calls generalizing taken with
  | nil => rw [List.append_nil]; rfl
  | cons call calls ih =>
    have step : (recorder supportsColor none).feed taken (call :: calls) =
        (recorder supportsColor none).feed (taken ++ [call]) calls := rfl
    rw [step, ih, List.append_assoc]
    rfl

/-- A recorder that fails after `n` calls has taken these `n`, or all if there are no more. -/
theorem feed_recorder_failing (supportsColor : Bool) {n : Nat} (fault : Fault) {taken : List Call}
    (room : taken.length ≤ n) (calls : List Call) :
    (recorder supportsColor (some (n, fault))).feed taken calls =
      if n < (taken ++ calls).length then ((taken ++ calls).take n, some fault)
      else (taken ++ calls, none) := by
  induction calls generalizing taken with
  | nil => rw [List.append_nil, if_neg (by omega)]; rfl
  | cons call calls ih =>
    have all : taken ++ call :: calls = taken ++ [call] ++ calls := by simp
    by_cases full : taken.length = n
    · have accept : (recorder supportsColor (some (n, fault))).accept taken call =
          (taken, some fault) := if_pos full
      have more : n < (taken ++ call :: calls).length := by
        rw [List.length_append, List.length_cons]
        omega
      rw [feed, accept, if_pos more, ← full, List.take_left]
    · have accept : (recorder supportsColor (some (n, fault))).accept taken call =
          (taken ++ [call], none) := if_neg full
      have still_room : (taken ++ [call]).length ≤ n := by
        rw [List.length_append, List.length_singleton]
        omega
      rw [feed, accept, all]
      exact ih still_room

/-- A new recorder that fails after `n` calls. -/
theorem feed_new_recorder (supportsColor : Bool) (n : Nat) (fault : Fault) (calls : List Call) :
    (recorder supportsColor (some (n, fault))).feed [] calls =
      if n < calls.length then (calls.take n, some fault) else (calls, none) :=
  feed_recorder_failing supportsColor fault (Nat.zero_le n) calls

end Device
end Excerpt
