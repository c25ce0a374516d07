import Excerpt.Layout.Marker
import Excerpt.Proofs.Number.Order
import Mathlib.Data.List.Perm.Basic

/-! Rows of markers. Placing keeps every marker once, and on a row each marker
starts where the one before it ends or later. -/
namespace Excerpt

namespace Marker

/-- Columns count from 1, and a marker takes up at least one. -/
structure Proper (m : Marker Nat) : Prop where
  start_pos : 1 ≤ m.start
  start_lt_stop : m.start < m.stop

/-- `b` starts where `a` ends or later. -/
def Before (a b : Marker Nat) : Prop := a.stop ≤ b.start

theorem sort_perm {α : Type} [LT α] [DecidableLT α] [NatCast α] (markers : List (Marker α)) :
    (Marker.sort markers).Perm markers :=
  List.mergeSort_perm markers Marker.inOrder

end Marker

/-- Only the last marker of a row is compared; all others end before it does. -/
theorem apart_of_fitsBehind {α : Type} [LT α] [LE α] [DecidableLE α] [NatCast α]
    [LinearCoordinate α] {m : Marker α} {row : List (Marker α)}
    (apart : row.Pairwise fun a b => a.stop ≤ b.start)
    (wide : ∀ a ∈ row, a.start < a.stop) (fits : m.fitsBehind row = true) :
    (row ++ [m]).Pairwise fun a b => a.stop ≤ b.start := by
  refine List.pairwise_append.mpr ⟨apart, List.pairwise_singleton _ _, ?_⟩
  intro a ha b hb
  rw [List.mem_singleton.mp hb]
  rcases List.eq_nil_or_concat' row with rfl | ⟨front, last, rfl⟩
  · cases ha
  · have gap : last.stop ≤ m.start := by simpa [Marker.fitsBehind] using fits
    rcases List.mem_append.mp ha with earlier | same
    · have before : a.stop ≤ last.start :=
        (List.pairwise_append.mp apart).2.2 a earlier last (List.mem_singleton_self last)
      have widens : last.start ≤ last.stop := LinearCoordinate.le_of_lt (wide last (by simp))
      exact LinearCoordinate.le_trans (LinearCoordinate.le_trans before widens) gap
    · exact List.mem_singleton.mp same ▸ gap

/-- Markers from left to right, no two of which share a column. -/
structure MarkersApart (row : List (Marker Nat)) : Prop where
  proper : ∀ m ∈ row, m.Proper
  ordered : row.Pairwise Marker.Before

namespace MarkersApart

theorem nil : MarkersApart [] := ⟨by simp, .nil⟩

theorem sublist {a b : List (Marker Nat)} (h : MarkersApart b) (sub : a.Sublist b) :
    MarkersApart a :=
  ⟨fun m hm => h.proper m (sub.subset hm), h.ordered.sublist sub⟩

/-- No marker of a row ends behind the last one. -/
theorem stop_le_last {row : List (Marker Nat)} {last : Marker Nat}
    (h : MarkersApart (row ++ [last])) : ∀ m ∈ row ++ [last], m.stop ≤ last.stop := by
  intro m hm
  have wide := (h.proper last (by simp)).start_lt_stop
  rcases List.mem_append.mp hm with earlier | same
  · have before : m.stop ≤ last.start :=
      (List.pairwise_append.mp h.ordered).2.2 m earlier last (by simp)
    omega
  · exact Nat.le_of_eq (congrArg Marker.stop (List.mem_singleton.mp same))

theorem append_fitting {row : List (Marker Nat)} {m : Marker Nat} (h : MarkersApart row)
    (proper : m.Proper) (fits : m.fitsBehind row = true) : MarkersApart (row ++ [m]) := by
  constructor
  · intro other hm
    rcases List.mem_append.mp hm with old | new
    · exact h.proper other old
    · exact List.mem_singleton.mp new ▸ proper
  · exact apart_of_fitsBehind h.ordered (fun a ha => (h.proper a ha).start_lt_stop) fits

end MarkersApart

section

variable {α : Type} [LE α] [DecidableLE α]

theorem flatten_placeMarker (m : Marker α) (rows : List (List (Marker α))) :
    (placeMarker m rows).flatten.Perm (m :: rows.flatten) := by
  induction rows with
  | nil => exact .refl _
  | cons row rows ih =>
    rw [placeMarker]
    split
    · simp only [List.flatten_cons, List.append_assoc, List.singleton_append]
      exact List.perm_middle
    · simp only [List.flatten_cons]
      exact (ih.append_left row).trans List.perm_middle

variable [LT α] [DecidableLT α] [NatCast α]

/-- Rows hold the markers they are made from, each once. -/
theorem flatten_markerRows (markers : List (Marker α)) :
    (markerRows markers).flatten.Perm markers := by
  have placed (ms : List (Marker α)) (rows : List (List (Marker α))) :
      (ms.foldl (fun rows m => placeMarker m rows) rows).flatten.Perm (ms ++ rows.flatten) := by
    induction ms generalizing rows with
    | nil => exact .refl _
    | cons m ms ih =>
      rw [List.foldl_cons, List.cons_append]
      exact (ih _).trans (((flatten_placeMarker m rows).append_left ms).trans List.perm_middle)
  have all := placed (Marker.sort markers) []
  rw [List.flatten_nil, List.append_nil] at all
  exact all.trans (Marker.sort_perm markers)

end

theorem placeMarker_apart {m : Marker Nat} (proper : m.Proper) {rows : List (List (Marker Nat))}
    (h : ∀ row ∈ rows, MarkersApart row) : ∀ row ∈ placeMarker m rows, MarkersApart row := by
  induction rows with
  | nil =>
    intro row hrow
    rw [placeMarker, List.mem_singleton] at hrow
    exact hrow ▸ MarkersApart.nil.append_fitting proper rfl
  | cons first rows ih =>
    have hfirst := h first (by simp)
    have hrows : ∀ row ∈ rows, MarkersApart row := fun row hrow => h row (by simp [hrow])
    rw [placeMarker]
    split
    · rename_i fits
      intro row hrow
      rcases List.mem_cons.mp hrow with rfl | later
      · exact hfirst.append_fitting proper fits
      · exact hrows row later
    · intro row hrow
      rcases List.mem_cons.mp hrow with rfl | later
      · exact hfirst
      · exact ih hrows row later

theorem markerRows_apart {markers : List (Marker Nat)} (h : ∀ m ∈ markers, m.Proper) :
    ∀ row ∈ markerRows markers, MarkersApart row := by
  have placed (ms : List (Marker Nat)) (proper : ∀ m ∈ ms, m.Proper)
      (rows : List (List (Marker Nat))) (apart : ∀ row ∈ rows, MarkersApart row) :
      ∀ row ∈ ms.foldl (fun rows m => placeMarker m rows) rows, MarkersApart row := by
    induction ms generalizing rows with
    | nil => exact apart
    | cons m ms ih =>
      rw [List.foldl_cons]
      exact ih (fun other hm => proper other (by simp [hm])) _
        (placeMarker_apart (proper m (by simp)) apart)
  exact placed (Marker.sort markers)
    (fun m hm => h m ((Marker.sort_perm markers).mem_iff.mp hm)) [] (by simp)

end Excerpt
