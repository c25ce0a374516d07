import Excerpt.Proofs.Layout.Annotation
import Mathlib.Data.List.Perm.Basic

/-! Where the items of annotation rows come from. Every marker of a row stands on
the first of its annotation rows, and the lines of its message stand below each
other in one column; there are no other markers and messages. -/
namespace Excerpt

theorem flatMap_perm_swap {α β γ : Type} (xs : List α) (ys : List β) (g : α → β → List γ) :
    (xs.flatMap fun x => ys.flatMap fun y => g x y).Perm
      (ys.flatMap fun y => xs.flatMap fun x => g x y) := by
  induction ys with
  | nil => simp
  | cons y ys ih =>
    simp only [List.flatMap_cons]
    exact (List.flatMap_append_perm xs _ _).symm.trans (ih.append_left _)

section

variable {α : Type}

/-- The items of some rows, each with the number of its row. -/
def located (number : Nat) (rows : List (List (RowItem α))) : List (Nat × RowItem α) :=
  (rows.zipIdx number).flatMap fun (items, number) => items.map (number, ·)

@[simp] theorem located_nil (number : Nat) : located number ([] : List (List (RowItem α))) = [] :=
  rfl

@[simp] theorem located_cons (number : Nat) (items : List (RowItem α))
    (rows : List (List (RowItem α))) :
    located number (items :: rows) = items.map (number, ·) ++ located (number + 1) rows := by
  simp [located, List.zipIdx_cons]

theorem located_append (number : Nat) (a b : List (List (RowItem α))) :
    located number (a ++ b) = located number a ++ located (number + a.length) b := by
  simp [located, List.zipIdx_append]

theorem mem_located_zero (rows : List (List (RowItem α))) (number : Nat) (item : RowItem α) :
    (number, item) ∈ located 0 rows ↔ ∃ items, rows[number]? = some items ∧ item ∈ items := by
  simp only [located, List.mem_flatMap, List.mem_map, Prod.exists, Prod.mk.injEq]
  constructor
  · rintro ⟨items, _, found, _, member, rfl, rfl⟩
    exact ⟨items, (List.mem_zipIdx_iff_getElem? (x := (items, _))).mp found, member⟩
  · rintro ⟨items, found, member⟩
    exact ⟨items, number, List.mem_zipIdx_iff_getElem?.mpr found, item, member, rfl, rfl⟩

/-- The items of one kind among some. -/
def withRole (role : Role) (items : List (Nat × RowItem α)) : List (Nat × RowItem α) :=
  items.filter fun item => item.2.role = role

@[simp] theorem withRole_nil (role : Role) :
    withRole role ([] : List (Nat × RowItem α)) = [] := rfl

@[simp] theorem withRole_append (role : Role) (a b : List (Nat × RowItem α)) :
    withRole role (a ++ b) = withRole role a ++ withRole role b :=
  List.filter_append ..

theorem withRole_row (role : Role) (number : Nat) (items : List (RowItem α)) :
    withRole role (items.map (number, ·)) =
      (items.filter fun item => item.role = role).map (number, ·) :=
  List.filter_map ..

theorem filter_pointers {role : Role} (h : role ≠ .pointer) (markers : List (Marker α)) :
    (markers.map Marker.pointer).filter (fun item => item.role = role) = [] := by
  apply List.filter_eq_nil_iff.mpr
  intro item hi
  obtain ⟨m, _, rfl⟩ := List.mem_map.mp hi
  rw [decide_eq_true_eq]
  exact h.symm

/-- Rows of pointers with one line of a message each. -/
theorem withRole_messageRows {role : Role} (h : role ≠ .pointer) (pointed : List (Marker α))
    (m : Marker α) (column : α) (number : Nat) (lines : List String) :
    withRole role (located number (lines.map fun text =>
        pointed.map Marker.pointer ++ [m.messageAt column text])) =
      if role = .message then
        (lines.zipIdx number).map fun (text, number) => (number, m.messageAt column text)
      else [] := by
  induction lines generalizing number with
  | nil => simp
  | cons text lines ih =>
    rw [List.map_cons, located_cons, withRole_append, withRole_row, List.filter_append,
      filter_pointers h, ih, List.zipIdx_cons]
    by_cases message : role = .message
    · simp [message, Marker.messageAt]
    · have other : Role.message ≠ role := fun same => message same.symm
      simp [message, other, Marker.messageAt]

/-! ## Markers -/

theorem markers_hangingRows (number : Nat) (markers : List (Marker α)) :
    withRole .marker (located number (hangingRows markers)) = [] := by
  induction markers generalizing number with
  | nil => rfl
  | cons m left ih =>
    rw [hangingRows, located_append, withRole_append, withRole_messageRows (by decide), ih]
    rfl

variable [Add α] [LT α] [DecidableLT α] [OfNat α 1] [NatCast α]

theorem markers_tailRows (number : Nat) (row : List (Marker α)) :
    withRole .marker (located number (tailRows row)) = [] := by
  unfold tailRows
  cases row.getLast? with
  | none => rfl
  | some last => exact withRole_messageRows (by decide) ..

theorem markers_belowRows (number : Nat) (row : List (Marker α)) :
    withRole .marker (located number (belowRows row)) = [] := by
  unfold belowRows
  split
  · rfl
  · rw [located_cons, withRole_append, withRole_row, filter_pointers (by decide),
      markers_hangingRows]
    rfl

variable [Sub α] [Coordinate α]

theorem filter_marker_firstItems (m : Marker α) (next : Option (Marker α)) :
    (m.firstItems next).filter (fun item => item.role = .marker) = [m.item] := by
  rcases m.firstItems_cases next with alone | ⟨_, text, _, both⟩
  · rw [alone]; rfl
  · rw [both]; rfl

theorem filter_marker_firstRow (row : List (Marker α)) :
    (firstRow row).filter (fun item => item.role = .marker) = row.map Marker.item := by
  induction row with
  | nil => rfl
  | cons m ms ih =>
    rw [firstRow_cons, List.filter_append, filter_marker_firstItems, ih]
    rfl

theorem markers_annotate (number : Nat) (row : List (Marker α)) :
    withRole .marker (located number (annotate row)) = row.map fun m => (number, m.item) := by
  rw [annotate_eq, located_cons, located_append, withRole_append, withRole_append, withRole_row,
    filter_marker_firstRow, markers_tailRows, markers_belowRows]
  simp

end

/-! ## Messages -/

/-- Where the message of a marker stands: its lines are below each other, the
first one on the row with the given number. -/
structure MessagePlace (α : Type) where
  marker : Marker α
  number : Nat
  column : α

section

variable {α : Type}

namespace MessagePlace

def items (p : MessagePlace α) : List (Nat × RowItem α) :=
  (p.marker.messageLines.zipIdx p.number).map fun (text, number) =>
    (number, p.marker.messageAt p.column text)

end MessagePlace

/-- Where hanging messages stand that come from right to left. -/
def hungPlaces (number : Nat) : List (Marker α) → List (MessagePlace α)
  | [] => []
  | m :: left => ⟨m, number, m.start⟩ :: hungPlaces (number + m.messageLines.length) left

theorem map_marker_hungPlaces (number : Nat) (markers : List (Marker α)) :
    (hungPlaces number markers).map (·.marker) = markers := by
  induction markers generalizing number with
  | nil => rfl
  | cons m left ih => rw [hungPlaces, List.map_cons, ih]

theorem messages_hangingRows (number : Nat) (markers : List (Marker α)) :
    withRole .message (located number (hangingRows markers)) =
      (hungPlaces number markers).flatMap MessagePlace.items := by
  induction markers generalizing number with
  | nil => rfl
  | cons m left ih =>
    rw [hangingRows, located_append, withRole_append, withRole_messageRows (by decide),
      if_pos rfl, ih, List.length_map, hungPlaces, List.flatMap_cons]
    rfl

variable [Add α] [LT α] [DecidableLT α] [OfNat α 1] [NatCast α]

/-- The markers whose messages do not hang. -/
def standing (row : List (Marker α)) : List (Marker α) :=
  ((withNext row).filter fun (m, next) => !m.hangs next).map (·.1)

theorem standing_hanging (row : List (Marker α)) : (hanging row ++ standing row).Perm row := by
  have split := List.filter_append_perm (fun (m, next) => Marker.hangs m next) (withNext row)
  have perm := split.map (·.1)
  rwa [List.map_append, map_fst_withNext] at perm

/-- Where the messages of a row stand, the first of whose annotation rows has the
given number. -/
def messagePlaces (number : Nat) (row : List (Marker α)) : List (MessagePlace α) :=
  (standing row).map (fun m => ⟨m, number, m.behind⟩) ++
    hungPlaces (number + 1 + (tailRows row).length + 1) (hanging row).reverse

theorem map_marker_messagePlaces (number : Nat) (row : List (Marker α)) :
    ((messagePlaces number row).map (·.marker)).Perm row := by
  rw [messagePlaces, List.map_append, List.map_map, map_marker_hungPlaces]
  have same : ((fun p : MessagePlace α => p.marker) ∘ fun m => ⟨m, number, m.behind⟩) = id := rfl
  rw [same, List.map_id]
  exact (List.perm_append_comm.trans ((List.reverse_perm _).append_right _)).trans
    (standing_hanging row)

theorem messages_belowRows (number : Nat) (row : List (Marker α)) :
    withRole .message (located number (belowRows row)) =
      (hungPlaces (number + 1) (hanging row).reverse).flatMap MessagePlace.items := by
  unfold belowRows
  cases hanging row with
  | nil => rfl
  | cons m pending =>
    rw [located_cons, withRole_append, withRole_row, filter_pointers (by decide),
      messages_hangingRows]
    rfl

theorem messages_tailRows (number : Nat) (front : List (Marker α)) (last : Marker α) :
    withRole .message (located number (tailRows (front ++ [last]))) =
      ((last.messageLines.drop 1).zipIdx number).map fun (text, number) =>
        (number, last.messageAt last.behind text) := by
  simp only [tailRows, List.getLast?_append, List.getLast?_singleton, Option.some_or]
  rw [withRole_messageRows (by decide), if_pos rfl]

variable [Sub α] [Coordinate α]

/-- Behind a marker with another one after it stands its whole message, unless
the message hangs. -/
theorem messages_firstItems (number : Nat) (m next : Marker α) :
    withRole .message ((m.firstItems (some next)).map (number, ·)) =
      if m.hangs (some next) then [] else MessagePlace.items ⟨m, number, m.behind⟩ := by
  by_cases fits : m.fitsBefore (some next) = true
  · obtain ⟨text, one, _⟩ := (m.fitsBefore_some_iff next).mp fits
    simp [Marker.firstItems, Marker.hangs, MessagePlace.items, fits, one, withRole, Marker.item,
      Marker.messageAt]
  · cases message : m.message with
    | none =>
      simp [Marker.firstItems, Marker.hangs, MessagePlace.items, Marker.messageLines, fits,
        message, withRole, Marker.item]
    | some text => simp [Marker.firstItems, Marker.hangs, fits, message, withRole, Marker.item]

/-- Behind the last marker stands its whole message; only the first line of it is
on the row of the marker. -/
theorem messages_last (number : Nat) (m : Marker α) :
    withRole .message ((m.firstItems none).map (number, ·)) ++
        ((m.messageLines.drop 1).zipIdx (number + 1)).map (fun (text, number) =>
          (number, m.messageAt m.behind text)) =
      MessagePlace.items ⟨m, number, m.behind⟩ := by
  unfold MessagePlace.items
  cases lines : m.messageLines with
  | nil => simp [Marker.firstItems, Marker.fitsBefore, lines, withRole, Marker.item]
  | cons text rest =>
    simp [Marker.firstItems, Marker.fitsBefore, lines, withRole, Marker.item, Marker.messageAt,
      List.zipIdx_cons]

/-- The messages that stand behind their markers. -/
theorem messages_standing (number : Nat) (row : List (Marker α)) :
    withRole .message ((firstRow row).map (number, ·)) ++
        withRole .message (located (number + 1) (tailRows row)) =
      (standing row).flatMap fun m => MessagePlace.items ⟨m, number, m.behind⟩ := by
  induction row with
  | nil => rfl
  | cons m ms ih =>
    cases ms with
    | nil =>
      have tail := messages_tailRows (number + 1) [] m
      rw [List.nil_append] at tail
      rw [firstRow_cons, tail, List.head?_nil, show firstRow ([] : List (Marker α)) = [] from rfl,
        List.append_nil, messages_last]
      simp [standing, withNext, Marker.hangs, Marker.fitsBefore]
    | cons next ms =>
      obtain ⟨front, last, eq⟩ : ∃ front last, next :: ms = front ++ [last] :=
        ⟨_, _, (List.dropLast_append_getLast (List.cons_ne_nil next ms)).symm⟩
      have tail := messages_tailRows (number + 1) (m :: front) last
      rw [List.cons_append, ← eq, ← messages_tailRows (number + 1) front last, ← eq] at tail
      rw [firstRow_cons, List.map_append, withRole_append, tail, List.append_assoc, ih,
        List.head?_cons, messages_firstItems]
      have first : standing (m :: next :: ms) =
          (if m.hangs (some next) then [] else [m]) ++ standing (next :: ms) := by
        cases hangs : m.hangs (some next) <;> simp [standing, withNext, hangs]
      rw [first, List.flatMap_append]
      split <;> simp

theorem messages_annotate (number : Nat) (row : List (Marker α)) :
    withRole .message (located number (annotate row)) =
      (messagePlaces number row).flatMap MessagePlace.items := by
  rw [annotate_eq, located_cons, located_append, withRole_append, withRole_append,
    ← List.append_assoc, messages_standing, messages_belowRows, messagePlaces,
    List.flatMap_append, List.flatMap_map]

end

/-! ## Columns that are counted -/

/-- The items of some rows with the numbers of their rows. -/
def numbered (number : Nat) (rows : List (List (RowItem Nat))) : List (Nat × RowItem Nat) :=
  (rows.zipIdx number).flatMap fun (items, number) => items.map (number, ·)

/-- The items of one kind. -/
def ofRole (role : Role) (items : List (Nat × RowItem Nat)) : List (Nat × RowItem Nat) :=
  items.filter fun item => item.2.role = role

theorem ofRole_numbered (role : Role) (number : Nat) (rows : List (List (RowItem Nat))) :
    ofRole role (numbered number rows) = withRole role (located number rows) := rfl

theorem mem_numbered_zero (rows : List (List (RowItem Nat))) (number : Nat) (item : RowItem Nat) :
    (number, item) ∈ numbered 0 rows ↔ ∃ items, rows[number]? = some items ∧ item ∈ items :=
  mem_located_zero rows number item

/-! ## All rows of a line -/

/-- What some rows of markers place on their annotation rows, which are below each
other: each row of markers starts behind those of the one before it. -/
def stacked {α : Type} (places : Nat → List (Marker Nat) → List α) (number : Nat) :
    List (List (Marker Nat)) → List α
  | [] => []
  | row :: rows => places number row ++ stacked places (number + (annotate row).length) rows

/-- The markers of some rows with the numbers of their annotation rows. -/
def numberedMarkers (rows : List (List (Marker Nat))) : List (Nat × Marker Nat) :=
  stacked (fun number row => row.map (number, ·)) 0 rows

theorem ofRole_annotateAll {α : Type} {role : Role} {places : Nat → List (Marker Nat) → List α}
    {items : α → List (Nat × RowItem Nat)}
    (each : ∀ number row,
      withRole role (located number (annotate row)) = (places number row).flatMap items)
    (number : Nat) (rows : List (List (Marker Nat))) :
    ofRole role (numbered number (rows.flatMap annotate)) =
      (stacked places number rows).flatMap items := by
  rw [ofRole_numbered]
  induction rows generalizing number with
  | nil => rfl
  | cons row rows ih =>
    rw [List.flatMap_cons, located_append, withRole_append, each, ih, stacked,
      List.flatMap_append]

theorem markers_annotateAll (rows : List (List (Marker Nat))) :
    ofRole .marker (numbered 0 (rows.flatMap annotate)) =
      (numberedMarkers rows).map fun (number, m) => (number, m.item) := by
  rw [numberedMarkers, List.map_eq_flatMap]
  refine ofRole_annotateAll (fun number row => ?_) 0 rows
  rw [markers_annotate, List.flatMap_map, List.map_eq_flatMap]

theorem messages_annotateAll (rows : List (List (Marker Nat))) :
    ofRole .message (numbered 0 (rows.flatMap annotate)) =
      (stacked messagePlaces 0 rows).flatMap MessagePlace.items :=
  ofRole_annotateAll messages_annotate 0 rows

theorem stacked_perm {α : Type} {places : Nat → List (Marker Nat) → List α}
    {marker : α → Marker Nat}
    (each : ∀ number row, ((places number row).map marker).Perm row) (number : Nat)
    (rows : List (List (Marker Nat))) :
    ((stacked places number rows).map marker).Perm rows.flatten := by
  induction rows generalizing number with
  | nil => exact .refl _
  | cons row rows ih =>
    rw [stacked, List.map_append, List.flatten_cons]
    exact (each number row).append (ih _)

theorem numberedMarkers_perm (rows : List (List (Marker Nat))) :
    ((numberedMarkers rows).map (·.2)).Perm rows.flatten := by
  refine stacked_perm (fun number row => ?_) 0 rows
  rw [List.map_map]
  exact .of_eq (List.map_id row)

theorem messagePlaces_perm (rows : List (List (Marker Nat))) :
    ((stacked messagePlaces 0 rows).map (·.marker)).Perm rows.flatten :=
  stacked_perm map_marker_messagePlaces 0 rows

/-- Markers on one annotation row do not share a column. -/
theorem numberedMarkers_apart {rows : List (List (Marker Nat))}
    (h : ∀ row ∈ rows, MarkersApart row) :
    (numberedMarkers rows).Pairwise fun a b => a.1 = b.1 → a.2.Before b.2 := by
  suffices placed : ∀ number,
      (∀ a ∈ stacked (fun number row => row.map (number, ·)) number rows, number ≤ a.1) ∧
        (stacked (fun number row => row.map (number, ·)) number rows).Pairwise
          fun a b => a.1 = b.1 → a.2.Before b.2 from (placed 0).2
  induction rows with
  | nil => exact fun number => ⟨by simp [stacked], .nil⟩
  | cons row rows ih =>
    intro number
    obtain ⟨below, rest⟩ := ih (fun other hr => h other (by simp [hr]))
      (number + (annotate row).length)
    have taller : 0 < (annotate row).length := by
      rw [annotate_eq]
      exact Nat.succ_pos _
    rw [stacked]
    constructor
    · intro a ha
      rcases List.mem_append.mp ha with own | later
      · obtain ⟨m, _, rfl⟩ := List.mem_map.mp own
        exact Nat.le_refl _
      · exact Nat.le_trans (Nat.le_add_right _ _) (below a later)
    · refine List.pairwise_append.mpr ⟨?_, rest, ?_⟩
      · refine List.pairwise_map.mpr ((h row (by simp)).ordered.imp ?_)
        intro a b before _
        exact before
      · intro a ha b hb same
        obtain ⟨m, _, rfl⟩ := List.mem_map.mp ha
        have lower := below b hb
        dsimp only at same
        omega

end Excerpt
