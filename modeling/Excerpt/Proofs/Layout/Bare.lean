import Excerpt.Proofs.Layout.Columns
import Excerpt.Proofs.Layout.Lines
import Excerpt.Proofs.Packing

/-! Markers without their orders. The rows of some markers, and the items of a row, do not depend
on the orders of markers that are told apart by their columns and styles. -/
namespace Excerpt

theorem LabelStyle.eq_of_rank {a b : LabelStyle} (h : a.rank = b.rank) : a = b := by
  cases a <;> cases b <;> first | rfl | cases h

namespace Marker

/-- A marker without its order. -/
def bare (m : Marker Nat) : Marker Nat := { m with order := 0 }

/-! ## Items -/

theorem withNext_map_bare (row : List (Marker Nat)) :
    withNext (row.map bare) = (withNext row).map fun (m, next) => (m.bare, next.map bare) := by
  induction row with
  | nil => rfl
  | cons m row ih =>
    rw [List.map_cons, withNext, withNext, ih, List.head?_map]
    rfl

theorem fitsBefore_bare (m : Marker Nat) (next : Option (Marker Nat)) :
    m.bare.fitsBefore (next.map bare) = m.fitsBefore next := by
  cases next with
  | none => rfl
  | some next =>
    have same : m.bare.messageLines = m.messageLines := rfl
    rw [Option.map_some]
    unfold fitsBefore
    rw [same]
    rcases m.messageLines with _ | ⟨text, _ | _⟩ <;> rfl

theorem firstItems_bare (m : Marker Nat) (next : Option (Marker Nat)) :
    m.bare.firstItems (next.map bare) = m.firstItems next := by
  rw [firstItems, fitsBefore_bare]
  rfl

theorem hanging_map_bare (row : List (Marker Nat)) :
    hanging (row.map bare) = (hanging row).map bare := by
  have hangs (m : Marker Nat) (next : Option (Marker Nat)) :
      m.bare.hangs (next.map bare) = m.hangs next := by
    rw [Marker.hangs, fitsBefore_bare]
    rfl
  rw [hanging, hanging, withNext_map_bare, List.filter_map, List.map_map, List.map_map]
  simp only [Function.comp_def, hangs]

theorem map_pointer_bare (ms : List (Marker Nat)) : (ms.map bare).map pointer = ms.map pointer := by
  rw [List.map_map]
  rfl

theorem hangingRows_map_bare (pending : List (Marker Nat)) :
    hangingRows (pending.map bare) = hangingRows pending := by
  induction pending with
  | nil => rfl
  | cons m left ih =>
    rw [List.map_cons, hangingRows, hangingRows, ih, ← List.map_reverse, map_pointer_bare]
    rfl

theorem tailRows_map_bare (row : List (Marker Nat)) : tailRows (row.map bare) = tailRows row := by
  rw [tailRows, tailRows, List.getLast?_map, hanging_map_bare, map_pointer_bare]
  cases row.getLast? <;> rfl

theorem annotate_map_bare (row : List (Marker Nat)) : annotate (row.map bare) = annotate row := by
  have firsts : ((withNext row).flatMap fun (m, next) => m.bare.firstItems (next.map bare)) =
      (withNext row).flatMap fun (m, next) => m.firstItems next := by
    simp only [firstItems_bare]
  rw [annotate, annotate, withNext_map_bare, List.flatMap_map, firsts, tailRows_map_bare,
    hanging_map_bare]
  cases hanging row with
  | nil => rfl
  | cons m pending =>
    show _ :: tailRows row ++ ((m :: pending).map bare).map pointer ::
      hangingRows ((m :: pending).map bare).reverse = _
    rw [map_pointer_bare, ← List.map_reverse, hangingRows_map_bare]

/-! ## Rows -/

theorem fitsBehind_bare (m : Marker Nat) (row : List (Marker Nat)) :
    m.bare.fitsBehind (row.map bare) = m.fitsBehind row := by
  rw [fitsBehind, fitsBehind, List.getLast?_map]
  cases row.getLast? <;> rfl

theorem placeMarker_bare (m : Marker Nat) (rows : List (List (Marker Nat))) :
    placeMarker m.bare (rows.map (List.map bare)) = (placeMarker m rows).map (List.map bare) := by
  induction rows with
  | nil => rfl
  | cons row rows ih =>
    rw [List.map_cons, placeMarker, placeMarker, fitsBehind_bare, ih]
    split
    · rw [List.map_cons, List.map_append]
      rfl
    · rfl

theorem foldl_placeMarker_bare (ms : List (Marker Nat)) (rows : List (List (Marker Nat))) :
    (ms.map bare).foldl (fun rows m => placeMarker m rows) (rows.map (List.map bare)) =
      (ms.foldl (fun rows m => placeMarker m rows) rows).map (List.map bare) := by
  induction ms generalizing rows with
  | nil => rfl
  | cons m ms ih => rw [List.map_cons, List.foldl_cons, List.foldl_cons, placeMarker_bare, ih]

/-- Columns and styles tell some markers apart. -/
def Distinct (ms : List (Marker Nat)) : Prop :=
  ∀ a ∈ ms, ∀ b ∈ ms, a.start = b.start → a.style = b.style → a = b

theorem inOrder_iff (a b : Marker Nat) :
    a.inOrder b = true ↔ a.start < b.start ∨ a.start = b.start ∧
      (a.style.rank < b.style.rank ∨ a.style.rank = b.style.rank ∧ a.order ≤ b.order) := by
  have last : Excerpt.inOrder ([] : List (Nat × Nat)) = true := rfl
  simp only [inOrder, inOrder_cons, last, and_true, Nat.cast_id, Nat.le_iff_lt_or_eq]

/-- Markers that are told apart are sorted without their orders. -/
theorem sort_map_bare {ms : List (Marker Nat)} (distinct : Distinct ms) :
    (sort ms).map bare = sort (ms.map bare) := by
  apply List.map_mergeSort
  intro a ha b hb
  rw [Bool.eq_iff_iff, inOrder_iff, inOrder_iff]
  by_cases same : a.start = b.start ∧ a.style.rank = b.style.rank
  · cases distinct a ha b hb same.1 (LabelStyle.eq_of_rank same.2)
    simp [bare]
  · simp only [bare]
    omega

theorem markerRows_map_bare {ms : List (Marker Nat)} (distinct : Distinct ms) :
    (markerRows ms).map (List.map bare) = markerRows (ms.map bare) := by
  rw [markerRows, ← foldl_placeMarker_bare, sort_map_bare distinct, markerRows]
  rfl

theorem markerRows_eq_of_perm {ms others : List (Marker Nat)}
    (wide : ∀ m ∈ ms, m.start < m.stop) (distinct : Distinct ms) (distinct' : Distinct others)
    (perm : (others.map bare).Perm (ms.map bare)) :
    (markerRows others).map (List.map bare) = (markerRows ms).map (List.map bare) := by
  rw [markerRows_map_bare distinct, markerRows_map_bare distinct', markerRows, markerRows]
  have untied : ∀ a ∈ ms.map bare, ∀ b ∈ ms.map bare, a.Tied b → a = b := by
    intro x hx y hy tied
    obtain ⟨a, ha, rfl⟩ := List.mem_map.mp hx
    obtain ⟨b, hb, rfl⟩ := List.mem_map.mp hy
    rw [distinct a ha b hb tied.1 tied.2.1]
  have still_wide : ∀ m ∈ ms.map bare, m.start < m.stop := by
    intro x hx
    obtain ⟨m, hm, rfl⟩ := List.mem_map.mp hx
    exact wide m hm
  rw [sort_eq_of_perm still_wide untied perm]

end Marker
end Excerpt
