import Excerpt.Layout
import Mathlib.Data.List.Pairwise
import Mathlib.Data.Nat.Cast.Basic

/-! The lines that are shown for a file: in order, each once, and among them the
first and the last line of every label. -/
namespace Excerpt

section

variable {α : Type} [DecidableEq α] {line : α} {lines : List α}

theorem mem_dropRepeated :
    line ∈ dropRepeated lines ↔ line ∈ lines := by
  induction lines with
  | nil => rfl
  | cons first lines ih =>
    rw [dropRepeated]
    split
    · rename_i next rest dropped
      rw [dropped] at ih
      split
      · rename_i same
        simp only [List.mem_cons] at ih ⊢
        rw [← ih, same, ← or_assoc, or_self]
      · rw [List.mem_cons, ih, List.mem_cons]
    · rename_i dropped
      rw [dropped] at ih
      rw [List.mem_singleton, List.mem_cons, ← ih]
      simp

theorem dropRepeated_replicate (line : α) (n : Nat) :
    dropRepeated (List.replicate (n + 1) line) = [line] := by
  induction n with
  | zero => rfl
  | succ n ih =>
    rw [List.replicate_succ, dropRepeated, ih]
    exact if_pos rfl

variable [LE α] [DecidableLE α]

theorem mem_eachOnce : line ∈ eachOnce lines ↔ line ∈ lines := by
  rw [eachOnce, mem_dropRepeated, List.mem_mergeSort]

theorem eachOnce_replicate (placed : line ≤ line) (n : Nat) :
    eachOnce (List.replicate (n + 1) line) = [line] := by
  have sorted : (List.replicate (n + 1) line).Pairwise fun a b => decide (a ≤ b) :=
    List.pairwise_replicate.mpr (.inr (decide_eq_true placed))
  rw [eachOnce, List.mergeSort_of_pairwise sorted, dropRepeated_replicate]

end

theorem dropRepeated_sorted {lines : List Nat} (h : lines.Pairwise (· ≤ ·)) :
    (dropRepeated lines).Pairwise (· < ·) := by
  induction lines with
  | nil => exact .nil
  | cons first lines ih =>
    obtain ⟨least, sorted⟩ := List.pairwise_cons.mp h
    have rest := ih sorted
    rw [dropRepeated]
    split
    · rename_i next tail dropped
      rw [dropped] at rest
      split
      · exact rest
      · rename_i differs
        have first_lt : first < next := by
          have := least next (mem_dropRepeated.mp (by rw [dropped]; simp))
          omega
        apply List.pairwise_cons.mpr ⟨_, rest⟩
        intro line hl
        rcases List.mem_cons.mp hl with rfl | later
        · exact first_lt
        · exact Nat.lt_trans first_lt ((List.pairwise_cons.mp rest).1 line later)
    · exact List.pairwise_singleton _ _

theorem eachOnce_sorted (lines : List Nat) : (eachOnce lines).Pairwise (· < ·) := by
  apply dropRepeated_sorted
  have sorted := @List.pairwise_mergeSort Nat (fun a b => decide (a ≤ b))
    (fun a b c ab bc => by simp only [decide_eq_true_eq] at *; omega)
    (fun a b => by simp only [Bool.or_eq_true, decide_eq_true_eq]; omega) lines
  exact sorted.imp of_decide_eq_true

theorem le_of_getLast? {lines : List Nat} (sorted : lines.Pairwise (· < ·)) {last : Nat}
    (h : lines.getLast? = some last) : ∀ line ∈ lines, line ≤ last := by
  intro line hl
  have bound := (sorted.imp Nat.le_of_lt).rel_getLast hl
  rwa [(List.getLast_eq_iff_getLast?_eq_some _).mpr h] at bound

theorem le_of_head? {lines : List Nat} (sorted : lines.Pairwise (· < ·)) {first : Nat}
    (h : lines.head? = some first) : ∀ line ∈ lines, first ≤ line := by
  intro line hl
  have bound := (sorted.imp Nat.le_of_lt).rel_head hl
  rwa [(List.head_eq_iff_head?_eq_some _).mpr h] at bound

namespace Layout.FileLabels

variable (f : FileLabels Nat)

theorem shown_sorted : f.shown.Pairwise (· < ·) := eachOnce_sorted _

theorem shown_nodup : f.shown.Nodup := f.shown_sorted.imp Nat.ne_of_lt

theorem mem_shown_of_label {l : ResolvedLabel Nat} (hl : l ∈ f.labels) {line : Nat}
    (h : line ∈ l.shownLines f.config) : line ∈ f.shown :=
  mem_eachOnce.mpr (List.mem_append_left _ (List.mem_flatMap.mpr ⟨l, hl, h⟩))

theorem start_mem_shown {l : ResolvedLabel Nat} (hl : l ∈ f.labels) : l.start.line ∈ f.shown :=
  f.mem_shown_of_label hl (by simp [ResolvedLabel.shownLines])

theorem stop_mem_shown {l : ResolvedLabel Nat} (hl : l ∈ f.labels) : l.stop.line ∈ f.shown :=
  f.mem_shown_of_label hl (by simp [ResolvedLabel.shownLines])

end Layout.FileLabels
end Excerpt
