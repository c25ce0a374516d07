import Excerpt.Layout.Row
import Excerpt.Proofs.Layout.Rows
import Mathlib.Data.Nat.Cast.Basic

/-! Annotation rows from one row of markers. On every one of them the items stand
from left to right, and none reaches into the next. -/
namespace Excerpt

namespace RowItem

/-- The column behind an item. -/
def stop (item : RowItem Nat) : Nat := item.column + item.text.length

/-- `b` stands behind `a`; behind a message a marker leaves a blank column free. -/
structure Precedes (a b : RowItem Nat) : Prop where
  column_lt : a.column < b.column
  stop_le : a.stop ≤ b.column
  blank : a.role = .message → b.role = .marker → a.stop < b.column

end RowItem

/-- Items from left to right without collisions; columns count from 1, and a
marker has a glyph. -/
structure ItemsApart (items : List (RowItem Nat)) : Prop where
  ordered : items.Pairwise RowItem.Precedes
  column_pos : ∀ item ∈ items, 1 ≤ item.column
  glyph : ∀ item ∈ items, item.role = .marker → 1 ≤ item.text.length

theorem ItemsApart.sublist {a b : List (RowItem Nat)} (h : ItemsApart b) (sub : a.Sublist b) :
    ItemsApart a where
  ordered := h.ordered.sublist sub
  column_pos item hi := h.column_pos item (sub.subset hi)
  glyph item hi := h.glyph item (sub.subset hi)

theorem ItemsApart.append {a b : List (RowItem Nat)} (ha : ItemsApart a) (hb : ItemsApart b)
    (between : ∀ x ∈ a, ∀ y ∈ b, x.Precedes y) : ItemsApart (a ++ b) where
  ordered := List.pairwise_append.mpr ⟨ha.ordered, hb.ordered, between⟩
  column_pos item h := (List.mem_append.mp h).elim (ha.column_pos item) (hb.column_pos item)
  glyph item h := (List.mem_append.mp h).elim (ha.glyph item) (hb.glyph item)

section

variable {α : Type} [Add α] [LT α] [DecidableLT α] [OfNat α 1] [NatCast α]

/-- Before another marker only a single line fits. -/
theorem Marker.fitsBefore_some_iff (m next : Marker α) :
    m.fitsBefore (some next) = true ↔
      ∃ text, m.messageLines = [text] ∧ m.behind + (text.length : α) < next.start := by
  unfold fitsBefore
  match m.messageLines with
  | [] => simp
  | [text] => simp
  | _ :: _ :: _ => simp

omit [Add α] [LT α] [DecidableLT α] [OfNat α 1] [NatCast α] in
theorem map_fst_withNext (row : List (Marker α)) : (withNext row).map (·.1) = row := by
  induction row with
  | nil => rfl
  | cons m ms ih => rw [withNext, List.map_cons, ih]

theorem hanging_sublist (row : List (Marker α)) : (hanging row).Sublist row := by
  have kept : (hanging row).Sublist ((withNext row).map (·.1)) := List.filter_sublist.map _
  rwa [map_fst_withNext] at kept

/-- The rows of the messages that hang below their markers. -/
def belowRows (row : List (Marker α)) : List (List (RowItem α)) :=
  match hanging row with
  | [] => []
  | pending => pending.map Marker.pointer :: hangingRows pending.reverse

variable [Sub α] [Coordinate α]

/-- What stands behind a marker on its row: nothing or the first line of its message. -/
theorem Marker.firstItems_cases (m : Marker α) (next : Option (Marker α)) :
    m.firstItems next = [m.item] ∨
      m.fitsBefore next = true ∧ ∃ text ∈ m.messageLines.head?,
        m.firstItems next = [m.item, m.messageAt m.behind text] := by
  unfold firstItems
  split
  · rename_i fits
    cases hl : m.messageLines with
    | nil => exact .inl rfl
    | cons text rest => exact .inr ⟨fits, text, by simp, rfl⟩
  · exact .inl rfl

/-- The row of the markers themselves. -/
def firstRow (row : List (Marker α)) : List (RowItem α) :=
  (withNext row).flatMap fun (m, next) => m.firstItems next

theorem annotate_eq (row : List (Marker α)) :
    annotate row = firstRow row :: (tailRows row ++ belowRows row) := by
  unfold annotate belowRows firstRow
  cases hanging row <;> rfl

theorem firstRow_cons (m : Marker α) (ms : List (Marker α)) :
    firstRow (m :: ms) = m.firstItems ms.head? ++ firstRow ms := rfl

/-- What stands on annotation rows because of a marker. -/
inductive Marker.Annotates (m : Marker α) : RowItem α → Prop
  | marker : m.Annotates m.item
  | pointer : m.Annotates m.pointer
  | behind {text : String} (own : text ∈ m.messageLines) : m.Annotates (m.messageAt m.behind text)
  | below {text : String} (own : text ∈ m.messageLines) : m.Annotates (m.messageAt m.start text)

theorem Marker.annotates_of_mem_firstItems {m : Marker α} {next : Option (Marker α)} :
    ∀ item ∈ m.firstItems next, m.Annotates item := by
  intro item hi
  rcases m.firstItems_cases next with alone | ⟨_, text, first, both⟩
  · rw [alone, List.mem_singleton] at hi
    exact hi ▸ .marker
  · rw [both, List.mem_cons, List.mem_singleton] at hi
    rcases hi with rfl | rfl
    · exact .marker
    · exact .behind (List.mem_of_mem_head? first)

omit [LT α] [DecidableLT α] [NatCast α] in
theorem annotates_of_mem_pointers {pointed : List (Marker α)} :
    ∀ item ∈ pointed.map Marker.pointer, ∃ m ∈ pointed, m.Annotates item := by
  intro item hi
  obtain ⟨m, hm, rfl⟩ := List.mem_map.mp hi
  exact ⟨m, hm, .pointer⟩

omit [LT α] [DecidableLT α] [NatCast α] in
theorem annotates_of_mem_hangingRows {markers : List (Marker α)} {items : List (RowItem α)}
    (hr : items ∈ hangingRows markers) : ∀ item ∈ items, ∃ m ∈ markers, m.Annotates item := by
  induction markers with
  | nil => cases hr
  | cons m left ih =>
    intro item hi
    rw [hangingRows, List.mem_append] at hr
    rcases hr with own | later
    · obtain ⟨text, member, rfl⟩ := List.mem_map.mp own
      rcases List.mem_append.mp hi with pointer | message
      · obtain ⟨other, ho, annotates⟩ := annotates_of_mem_pointers item pointer
        exact ⟨other, List.mem_cons_of_mem m (List.mem_reverse.mp ho), annotates⟩
      · exact ⟨m, List.mem_cons_self, List.mem_singleton.mp message ▸ .below member⟩
    · obtain ⟨other, ho, annotates⟩ := ih later item hi
      exact ⟨other, List.mem_cons_of_mem m ho, annotates⟩

/-- All that stands on annotation rows is there because of a marker of the row. -/
theorem annotates_of_mem_annotate {row : List (Marker α)} {items : List (RowItem α)}
    (hr : items ∈ annotate row) : ∀ item ∈ items, ∃ m ∈ row, m.Annotates item := by
  have hung := (hanging_sublist row).subset
  intro item hi
  rw [annotate_eq, List.mem_cons, List.mem_append] at hr
  rcases hr with rfl | tail | below
  · obtain ⟨⟨m, next⟩, hm, own⟩ := List.mem_flatMap.mp hi
    have member : m ∈ (withNext row).map (·.1) := List.mem_map_of_mem hm
    rw [map_fst_withNext] at member
    exact ⟨m, member, Marker.annotates_of_mem_firstItems item own⟩
  · unfold tailRows at tail
    split at tail
    · cases tail
    · rename_i last found
      obtain ⟨text, member, rfl⟩ := List.mem_map.mp tail
      rcases List.mem_append.mp hi with pointer | message
      · obtain ⟨m, hm, annotates⟩ := annotates_of_mem_pointers item pointer
        exact ⟨m, hung hm, annotates⟩
      · exact ⟨last, List.mem_of_getLast? found,
          List.mem_singleton.mp message ▸ .behind (List.mem_of_mem_drop member)⟩
  · unfold belowRows at below
    split at below
    · cases below
    · rcases List.mem_cons.mp below with rfl | later
      · obtain ⟨m, hm, annotates⟩ := annotates_of_mem_pointers item hi
        exact ⟨m, hung hm, annotates⟩
      · obtain ⟨m, hm, annotates⟩ := annotates_of_mem_hangingRows later item hi
        exact ⟨m, hung (List.mem_reverse.mp hm), annotates⟩

end

namespace Marker

@[simp] theorem length_item (m : Marker Nat) : m.item.text.length = m.stop - m.start := by
  simp [item, Strip.length_eq]

@[simp] theorem length_pointer (m : Marker Nat) : m.pointer.text.length = 1 := by
  simp [pointer, Strip.length_eq]

@[simp] theorem length_messageAt (m : Marker Nat) (column : Nat) (text : String) :
    (m.messageAt column text).text.length = text.length := by
  simp [messageAt, Strip.length_eq, String.length_toList]

theorem Proper.stop_item {m : Marker Nat} (h : m.Proper) : m.item.stop = m.stop := by
  rw [RowItem.stop, length_item]
  exact Nat.add_sub_of_le (Nat.le_of_lt h.start_lt_stop)

theorem apart_message {m : Marker Nat} (column : Nat) (text : String) (pos : 1 ≤ column) :
    ItemsApart [m.messageAt column text] where
  ordered := List.pairwise_singleton _ _
  column_pos item h := List.mem_singleton.mp h ▸ pos
  glyph item h role := by rw [List.mem_singleton.mp h] at role; cases role

theorem apart_item {m : Marker Nat} (h : m.Proper) : ItemsApart [m.item] where
  ordered := List.pairwise_singleton _ _
  column_pos item hi := List.mem_singleton.mp hi ▸ h.start_pos
  glyph item hi _ := by
    have := h.start_lt_stop
    rw [List.mem_singleton.mp hi, length_item]
    omega

theorem item_precedes_message {m : Marker Nat} (h : m.Proper) (text : String) :
    m.item.Precedes (m.messageAt m.behind text) := by
  have wide := h.start_lt_stop
  refine ⟨?_, ?_, fun role => by cases role⟩
  · show m.start < m.stop + 1
    omega
  · rw [h.stop_item]
    exact Nat.le_succ m.stop

theorem firstItems_apart {m : Marker Nat} (h : m.Proper) (next : Option (Marker Nat)) :
    ItemsApart (m.firstItems next) := by
  rcases m.firstItems_cases next with alone | ⟨_, text, _, both⟩
  · exact alone ▸ apart_item h
  · rw [both]
    apply (apart_item h).append (apart_message m.behind text (Nat.succ_pos _))
    intro x hx y hy
    rw [List.mem_singleton.mp hx, List.mem_singleton.mp hy]
    exact item_precedes_message h text

theorem start_le_firstItems {m : Marker Nat} (h : m.Proper) (next : Option (Marker Nat)) :
    ∀ item ∈ m.firstItems next, m.start ≤ item.column := by
  have wide := h.start_lt_stop
  intro item hi
  rcases m.firstItems_cases next with alone | ⟨_, text, _, both⟩
  · rw [alone, List.mem_singleton] at hi
    exact hi ▸ Nat.le_refl _
  · rw [both, List.mem_cons, List.mem_singleton] at hi
    rcases hi with rfl | rfl
    · exact Nat.le_refl _
    · show m.start ≤ m.stop + 1
      omega

/-- What stands on the row of a marker ends before the next marker, and a message
leaves a blank column free. -/
theorem firstItems_stop {m next : Marker Nat} (h : m.Proper) (before : m.Before next) :
    ∀ item ∈ m.firstItems (some next), item.column < next.start ∧ item.stop ≤ next.start ∧
      (item.role = .message → item.stop < next.start) := by
  have wide := h.start_lt_stop
  have gap : m.stop ≤ next.start := before
  have marker : m.item.column < next.start ∧ m.item.stop ≤ next.start ∧
      (m.item.role = .message → m.item.stop < next.start) := by
    rw [h.stop_item]
    exact ⟨Nat.lt_of_lt_of_le wide gap, gap, fun role => by cases role⟩
  intro item hi
  rcases m.firstItems_cases (some next) with alone | ⟨fits, text, first, both⟩
  · rw [alone, List.mem_singleton] at hi
    exact hi ▸ marker
  · rw [both, List.mem_cons, List.mem_singleton] at hi
    rcases hi with rfl | rfl
    · exact marker
    · obtain ⟨line, one, room⟩ := (m.fitsBefore_some_iff next).mp fits
      rw [one, List.head?_cons, Option.mem_some_iff] at first
      rw [first] at room
      have stop : (m.messageAt m.behind text).stop = m.behind + text.length := by
        rw [RowItem.stop, length_messageAt]
        rfl
      rw [stop]
      exact ⟨Nat.lt_of_le_of_lt (Nat.le_add_right _ _) room, Nat.le_of_lt room, fun _ => room⟩

end Marker

/-- Nothing stands left of the first marker of a row. -/
theorem start_le_firstRow {m : Marker Nat} {ms : List (Marker Nat)}
    (h : MarkersApart (m :: ms)) : ∀ item ∈ firstRow (m :: ms), m.start ≤ item.column := by
  induction ms generalizing m with
  | nil =>
    intro item hi
    exact Marker.start_le_firstItems (h.proper m (by simp)) _ item (by simpa [firstRow_cons,
      firstRow, withNext] using hi)
  | cons next ms ih =>
    intro item hi
    rw [firstRow_cons, List.mem_append] at hi
    rcases hi with own | later
    · exact Marker.start_le_firstItems (h.proper m (by simp)) _ item own
    · have wide := (h.proper m (by simp)).start_lt_stop
      have gap : m.stop ≤ next.start := (List.pairwise_cons.mp h.ordered).1 next (by simp)
      have := ih (h.sublist (List.sublist_cons_self _ _)) item later
      omega

theorem firstRow_apart {row : List (Marker Nat)} (h : MarkersApart row) :
    ItemsApart (firstRow row) := by
  induction row with
  | nil => exact ⟨.nil, by simp [firstRow, withNext], by simp [firstRow, withNext]⟩
  | cons m ms ih =>
    have proper := h.proper m (by simp)
    have rest := h.sublist (List.sublist_cons_self _ _)
    rw [firstRow_cons]
    apply (Marker.firstItems_apart proper _).append (ih rest)
    intro x hx y hy
    cases ms with
    | nil => simp [firstRow, withNext] at hy
    | cons next ms =>
      have before := (List.pairwise_cons.mp h.ordered).1 next (by simp)
      obtain ⟨column, stop, message⟩ := Marker.firstItems_stop proper before x hx
      have right := start_le_firstRow rest y hy
      exact ⟨by omega, by omega, fun role _ => Nat.lt_of_lt_of_le (message role) right⟩

theorem pointers_apart {row : List (Marker Nat)} (h : MarkersApart row) :
    ItemsApart (row.map Marker.pointer) where
  ordered := by
    refine List.pairwise_map.mpr (h.ordered.imp_of_mem ?_)
    intro a b ha _ before
    have wide := (h.proper a ha).start_lt_stop
    have gap : a.stop ≤ b.start := before
    refine ⟨?_, ?_, fun role => by cases role⟩
    · show a.start < b.start
      omega
    · rw [RowItem.stop, Marker.length_pointer]
      show a.start + 1 ≤ b.start
      omega
  column_pos item hi := by
    obtain ⟨m, hm, rfl⟩ := List.mem_map.mp hi
    exact (h.proper m hm).start_pos
  glyph item hi role := by
    obtain ⟨m, _, rfl⟩ := List.mem_map.mp hi
    cases role

/-- A message to the right of some pointers. -/
theorem pointers_message_apart {row : List (Marker Nat)} (h : MarkersApart row) (m : Marker Nat)
    {column : Nat} (text : String) (pos : 1 ≤ column) (right : ∀ a ∈ row, a.start < column) :
    ItemsApart (row.map Marker.pointer ++ [m.messageAt column text]) := by
  apply (pointers_apart h).append (Marker.apart_message column text pos)
  intro x hx y hy
  obtain ⟨a, ha, rfl⟩ := List.mem_map.mp hx
  rw [List.mem_singleton.mp hy]
  refine ⟨right a ha, ?_, fun role => by cases role⟩
  rw [RowItem.stop, Marker.length_pointer]
  exact right a ha

theorem tailRows_apart {row : List (Marker Nat)} (h : MarkersApart row) :
    ∀ items ∈ tailRows row, ItemsApart items := by
  intro items hi
  rcases List.eq_nil_or_concat' row with rfl | ⟨front, last, rfl⟩
  · simp [tailRows] at hi
  · simp only [tailRows, List.getLast?_append, List.getLast?_singleton, Option.some_or] at hi
    obtain ⟨text, _, rfl⟩ := List.mem_map.mp hi
    have sub := hanging_sublist (front ++ [last])
    apply pointers_message_apart (h.sublist sub) last text (Nat.succ_pos _)
    intro a ha
    have wide := (h.proper a (sub.subset ha)).start_lt_stop
    have inside := h.stop_le_last a (sub.subset ha)
    show a.start < last.stop + 1
    omega

/-- The markers of `hangingRows` come from right to left. -/
theorem hangingRows_apart {markers : List (Marker Nat)} (h : MarkersApart markers.reverse) :
    ∀ items ∈ hangingRows markers, ItemsApart items := by
  induction markers with
  | nil => simp [hangingRows]
  | cons m left ih =>
    rw [List.reverse_cons] at h
    have apart := h.sublist (List.sublist_append_left _ _)
    intro items hi
    rw [hangingRows, List.mem_append] at hi
    rcases hi with own | later
    · obtain ⟨text, _, rfl⟩ := List.mem_map.mp own
      apply pointers_message_apart apart m text (h.proper m (by simp)).start_pos
      intro a ha
      have wide := (apart.proper a ha).start_lt_stop
      have gap : a.stop ≤ m.start := (List.pairwise_append.mp h.ordered).2.2 a ha m (by simp)
      omega
    · exact ih apart items later

theorem belowRows_apart {row : List (Marker Nat)} (h : MarkersApart row) :
    ∀ items ∈ belowRows row, ItemsApart items := by
  have apart := h.sublist (hanging_sublist row)
  intro items hi
  unfold belowRows at hi
  split at hi
  · simp at hi
  · rcases List.mem_cons.mp hi with rfl | hung
    · exact pointers_apart apart
    · exact hangingRows_apart ((List.reverse_reverse (hanging row)).symm ▸ apart) items hung

/-- No annotation row collides. -/
theorem annotate_apart {row : List (Marker Nat)} (h : MarkersApart row) :
    ∀ items ∈ annotate row, ItemsApart items := by
  intro items hi
  rw [annotate_eq, List.mem_cons, List.mem_append] at hi
  rcases hi with rfl | tail | below
  · exact firstRow_apart h
  · exact tailRows_apart h items tail
  · exact belowRows_apart h items below

end Excerpt
