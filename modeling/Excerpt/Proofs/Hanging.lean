import Excerpt.Proofs.Layout.Placement
import Excerpt.Proofs.Number.Order
import Mathlib.Data.List.Nodup

/-! Messages that hang below a row of markers. Every message stands in one column: behind its
marker if it is inline, else below it, and then pointers lead down to it from the marker
without a gap. Besides the markers, the messages and these pointers there is nothing. -/
namespace Excerpt

section

variable {α : Type}

/-- The pointers that lead down to a message from a row. -/
def MessagePlace.pointersFrom (first : Nat) (p : MessagePlace α) : List (Nat × RowItem α) :=
  (List.range' first (p.number - first)).map (·, p.marker.pointer)

theorem MessagePlace.mem_pointersFrom {p : MessagePlace α} {first : Nat}
    {item : Nat × RowItem α} :
    item ∈ p.pointersFrom first ↔
      (first ≤ item.1 ∧ item.1 < p.number) ∧ item.2 = p.marker.pointer := by
  obtain ⟨number, item⟩ := item
  simp only [pointersFrom, List.mem_map, List.mem_range'_1, Prod.mk.injEq]
  constructor
  · rintro ⟨_, inside, rfl, rfl⟩
    exact ⟨by omega, rfl⟩
  · rintro ⟨inside, rfl⟩
    exact ⟨number, by omega, rfl, rfl⟩

/-- Pointers to messages further down stand on each of the next rows, and lead on from there. -/
theorem pointersFrom_perm {places : List (MessagePlace α)} {first next : Nat}
    (le : first ≤ next) (below : ∀ p ∈ places, next ≤ p.number) :
    (places.flatMap (·.pointersFrom first)).Perm
      (((List.range' first (next - first)).flatMap fun number =>
          (places.map (·.marker)).map fun m => (number, m.pointer)) ++
        places.flatMap (·.pointersFrom next)) := by
  have split : ∀ p ∈ places, p.pointersFrom first =
      (List.range' first (next - first)).map (·, p.marker.pointer) ++ p.pointersFrom next := by
    intro p hp
    have lower := below p hp
    have count : p.number - first = (next - first) + (p.number - next) := by omega
    have start : first + (next - first) = next := by omega
    rw [MessagePlace.pointersFrom, MessagePlace.pointersFrom, count, ← List.range'_append_1,
      List.map_append, start]
  rw [List.flatMap_congr split]
  refine (List.flatMap_append_perm places _ _).symm.trans (.append_right _ ?_)
  simp only [List.map_eq_flatMap, List.flatMap_assoc, List.flatMap_cons, List.flatMap_nil,
    List.append_nil]
  exact flatMap_perm_swap places _ fun p number => [(number, p.marker.pointer)]

theorem le_of_mem_hungPlaces (number : Nat) (markers : List (Marker α)) :
    ∀ p ∈ hungPlaces number markers, number ≤ p.number ∧ p.column = p.marker.start := by
  induction markers generalizing number with
  | nil => intro p hp; cases hp
  | cons m left ih =>
    intro p hp
    rcases List.mem_cons.mp hp with rfl | later
    · exact ⟨le_rfl, rfl⟩
    · obtain ⟨lower, column⟩ := ih _ p later
      exact ⟨by omega, column⟩

/-! ## The pointers of a row -/

theorem pointers_row (number : Nat) (pointed : List (Marker α)) :
    withRole .pointer ((pointed.map Marker.pointer).map (number, ·)) =
      pointed.map fun m => (number, m.pointer) := by
  rw [withRole, List.map_map]
  refine List.filter_eq_self.mpr fun item own => ?_
  obtain ⟨m, _, rfl⟩ := List.mem_map.mp own
  rfl

theorem pointers_messageRows (pointed : List (Marker α)) (m : Marker α) (column : α)
    (number : Nat) (lines : List String) :
    withRole .pointer (located number (lines.map fun text =>
        pointed.map Marker.pointer ++ [m.messageAt column text])) =
      (List.range' number lines.length).flatMap fun number =>
        pointed.map fun m => (number, m.pointer) := by
  induction lines generalizing number with
  | nil => rfl
  | cons text lines ih =>
    rw [List.map_cons, located_cons, withRole_append, List.map_append, withRole_append,
      pointers_row, ih, List.length_cons, List.range'_succ, List.flatMap_cons]
    simp [withRole, Marker.messageAt]

/-- The markers of `hangingRows` come from right to left. -/
theorem pointers_hangingRows (number : Nat) (markers : List (Marker α)) :
    (withRole .pointer (located number (hangingRows markers))).Perm
      ((hungPlaces number markers).flatMap (·.pointersFrom number)) := by
  induction markers generalizing number with
  | nil => exact .refl _
  | cons m left ih =>
    have below := pointersFrom_perm (Nat.le_add_right number m.messageLines.length)
      fun p hp => (le_of_mem_hungPlaces _ left p hp).1
    have own : MessagePlace.pointersFrom number ⟨m, number, m.start⟩ = [] := by
      simp [MessagePlace.pointersFrom]
    rw [hangingRows, located_append, withRole_append, pointers_messageRows, List.length_map,
      hungPlaces, List.flatMap_cons, own, List.nil_append]
    rw [map_marker_hungPlaces, Nat.add_sub_cancel_left] at below
    -- The lines of `m` are the rows over which the pointers of all markers left of it go on.
    refine (List.Perm.append ?_ (ih _)).trans below.symm
    exact List.Perm.flatMap_left _ fun number _ => (List.reverse_perm left).map _

variable [Add α] [LT α] [DecidableLT α] [OfNat α 1] [NatCast α]

theorem pointers_tailRows (number : Nat) (row : List (Marker α)) :
    withRole .pointer (located number (tailRows row)) =
      (List.range' number (tailRows row).length).flatMap fun number =>
        (hanging row).map fun m => (number, m.pointer) := by
  unfold tailRows
  cases row.getLast? with
  | none => rfl
  | some last =>
    dsimp only
    rw [pointers_messageRows, List.length_map]

theorem pointers_belowRows (number : Nat) (row : List (Marker α)) :
    (withRole .pointer (located number (belowRows row))).Perm
      ((hungPlaces (number + 1) (hanging row).reverse).flatMap (·.pointersFrom number)) := by
  have below := pointersFrom_perm (Nat.le_succ number)
    fun p hp => (le_of_mem_hungPlaces _ (hanging row).reverse p hp).1
  unfold belowRows
  cases pending : hanging row with
  | nil => exact .refl _
  | cons m rest =>
    rw [pending, map_marker_hungPlaces, Nat.succ_sub (Nat.le_refl number), Nat.sub_self,
      List.range'_one, List.flatMap_singleton] at below
    rw [located_cons, withRole_append, pointers_row]
    refine (List.Perm.append ?_ (pointers_hangingRows (number + 1) _)).trans below.symm
    exact (List.reverse_perm _).symm.map _

variable [Sub α] [Coordinate α]

theorem pointers_firstRow (number : Nat) (row : List (Marker α)) :
    withRole .pointer ((firstRow row).map (number, ·)) = [] := by
  rw [withRole_row, List.map_eq_nil_iff, List.filter_eq_nil_iff]
  intro item own
  obtain ⟨⟨m, next⟩, _, mine⟩ := List.mem_flatMap.mp own
  change item ∈ m.firstItems next at mine
  rcases m.firstItems_cases next with alone | ⟨_, text, _, both⟩
  · rw [alone, List.mem_singleton] at mine
    rw [mine]
    simp [Marker.item]
  · rw [both, List.mem_cons, List.mem_singleton] at mine
    rcases mine with rfl | rfl <;> simp [Marker.item, Marker.messageAt]

theorem pointers_annotate (number : Nat) (row : List (Marker α)) :
    (withRole .pointer (located number (annotate row))).Perm
      ((messagePlaces number row).flatMap (·.pointersFrom (number + 1))) := by
  -- A message behind its marker starts on the first row, so nothing leads down to it.
  have standing : ((standing row).map fun m => (⟨m, number, m.behind⟩ : MessagePlace α)).flatMap
      (·.pointersFrom (number + 1)) = [] := by
    simp [List.flatMap_map, MessagePlace.pointersFrom]
  have below := pointersFrom_perm (Nat.le_add_right (number + 1) (tailRows row).length)
    fun p hp => Nat.le_of_succ_le (le_of_mem_hungPlaces _ (hanging row).reverse p hp).1
  rw [map_marker_hungPlaces, Nat.add_sub_cancel_left] at below
  rw [annotate_eq, located_cons, located_append, withRole_append, withRole_append,
    pointers_firstRow, List.nil_append, pointers_tailRows, messagePlaces, List.flatMap_append,
    standing, List.nil_append]
  refine (List.Perm.append ?_ (pointers_belowRows _ row)).trans below.symm
  exact List.Perm.flatMap_left _ fun number _ => (List.reverse_perm _).symm.map _

/-! ## All items of a row -/

omit [Add α] [LT α] [DecidableLT α] [OfNat α 1] [NatCast α] [Sub α] [Coordinate α] in
theorem perm_withRole (items : List (Nat × RowItem α)) :
    items.Perm (withRole .marker items ++ withRole .message items ++ withRole .pointer items) := by
  induction items with
  | nil => exact .refl _
  | cons item items ih =>
    simp only [withRole, List.filter_cons] at ih ⊢
    cases item.2.role with
    | marker => simpa using ih
    | message =>
      simp only [reduceCtorEq, decide_false, decide_true, if_true, Bool.false_eq_true, if_false]
      refine (ih.cons item).trans ?_
      simpa only [List.append_assoc, List.cons_append] using List.perm_middle.symm
    | pointer =>
      simp only [reduceCtorEq, decide_false, decide_true, if_true, Bool.false_eq_true, if_false]
      exact (ih.cons item).trans List.perm_middle.symm

theorem located_annotate (number : Nat) (row : List (Marker α)) :
    (located number (annotate row)).Perm
      (row.map (fun m => (number, m.item)) ++
        (messagePlaces number row).flatMap MessagePlace.items ++
        (messagePlaces number row).flatMap (·.pointersFrom (number + 1))) := by
  have roles := perm_withRole (located number (annotate row))
  rw [markers_annotate, messages_annotate] at roles
  exact roles.trans (.append_left _ (pointers_annotate number row))

theorem annotate?_eq_ok_iff {row : List (Marker α)} {rows : List (List (RowItem α))} :
    annotate? row = .ok rows ↔ (∀ m ∈ row, m.fault? = none) ∧ annotate row = rows := by
  rw [annotate?, ← List.findSome?_eq_none_iff]
  cases row.findSome? Marker.fault? <;> simp

end

/-! ## Where a message stands -/

section

variable {α : Type} [Add α] [LT α] [DecidableLT α] [OfNat α 1] [NatCast α]

/-- Whether the message of a marker can stand behind it: no marker comes after it, or the
message is a single line that ends before the next marker starts. -/
def Marker.Inline (m : Marker α) (next : Option (Marker α)) : Prop :=
  ∀ other ∈ next, ∃ line, m.messageLines = [line] ∧
    m.stop + 1 + (line.length : α) < other.start

theorem Marker.inline_iff (m : Marker α) (next : Option (Marker α)) :
    m.Inline next ↔ m.fitsBefore next = true := by
  cases next with
  | none => simp [Inline, fitsBefore]
  | some other =>
    simp only [Inline, fitsBefore_some_iff, Option.mem_def, Option.some.injEq, forall_eq']
    rfl

/-- A hanging message on some rows: it is below its marker, and the marker's pointer is on every
row in between, and on no row after that. -/
structure MessagePlace.Connected (p : MessagePlace α) (rows : List (List (RowItem α))) :
    Prop where
  column : p.column = p.marker.start
  below : 0 < p.number
  led : ∀ number, 1 ≤ number → number < p.number →
    ∃ items, rows[number]? = some items ∧ p.marker.pointer ∈ items
  done : ∀ number items, p.number ≤ number → rows[number]? = some items →
    ∀ item ∈ items, item.role = .pointer → item.column ≠ p.marker.start

theorem standing_mem_messagePlaces {row : List (Marker α)} {m : Marker α} {next : Option (Marker α)}
    (own : (m, next) ∈ withNext row) (stands : m.hangs next = false) (number : Nat) :
    (⟨m, number, m.stop + 1⟩ : MessagePlace α) ∈ messagePlaces number row := by
  have kept : m ∈ standing row :=
    List.mem_map.mpr ⟨(m, next), List.mem_filter.mpr ⟨own, by simp [stands]⟩, rfl⟩
  exact List.mem_append_left _ (List.mem_map_of_mem kept)

theorem exists_hung_place {row : List (Marker α)} {m : Marker α} {next : Option (Marker α)}
    (own : (m, next) ∈ withNext row) (hangs : m.hangs next = true) (number : Nat) :
    ∃ p ∈ messagePlaces number row, p.marker = m ∧ p.column = m.start ∧ number < p.number := by
  have kept : m ∈ (hanging row).reverse :=
    List.mem_reverse.mpr (List.mem_map.mpr ⟨(m, next), List.mem_filter.mpr ⟨own, hangs⟩, rfl⟩)
  rw [← map_marker_hungPlaces (number + 1 + (tailRows row).length + 1) (hanging row).reverse]
    at kept
  obtain ⟨p, hp, rfl⟩ := List.mem_map.mp kept
  obtain ⟨lower, column⟩ := le_of_mem_hungPlaces _ _ p hp
  exact ⟨p, List.mem_append_right _ hp, rfl, column, by omega⟩

variable [Sub α] [Coordinate α]

/-- Pointers in the column of a marker are those that lead to its message. -/
theorem lt_of_pointer {row : List (Marker α)} (starts : (row.map Marker.start).Nodup)
    {p : MessagePlace α} {base : Nat} (own : p ∈ messagePlaces base row) {number : Nat}
    {item : RowItem α} (shown : (number, item) ∈ located base (annotate row))
    (pointer : item.role = .pointer) (column : item.column = p.marker.start) :
    number < p.number := by
  have distinct : ((messagePlaces base row).map (·.marker.start)).Nodup := by
    have perm := (map_marker_messagePlaces base row).map Marker.start
    rw [List.map_map] at perm
    exact perm.nodup_iff.mpr starts
  rcases List.mem_append.mp ((located_annotate base row).mem_iff.mp shown) with other | led
  · rcases List.mem_append.mp other with marker | message
    · obtain ⟨m, _, eq⟩ := List.mem_map.mp marker
      cases eq
      cases pointer
    · obtain ⟨_, _, line⟩ := List.mem_flatMap.mp message
      obtain ⟨_, _, eq⟩ := List.mem_map.mp line
      cases eq
      cases pointer
  · obtain ⟨other, ho, led⟩ := List.mem_flatMap.mp led
    obtain ⟨⟨_, above⟩, eq⟩ := MessagePlace.mem_pointersFrom.mp led
    have same : other.marker.start = p.marker.start := by
      rw [← column, show item = other.marker.pointer from eq]
      rfl
    exact List.inj_on_of_nodup_map distinct ho own same ▸ above

theorem MessagePlace.connected {row : List (Marker α)} (starts : (row.map Marker.start).Nodup)
    {p : MessagePlace α} (own : p ∈ messagePlaces 0 row) (column : p.column = p.marker.start)
    (below : 0 < p.number) : p.Connected (annotate row) where
  column := column
  below := below
  led := by
    intro number first last
    have member : (number, p.marker.pointer) ∈ located 0 (annotate row) :=
      (located_annotate 0 row).mem_iff.mpr (List.mem_append_right _
        (List.mem_flatMap.mpr ⟨p, own, mem_pointersFrom.mpr ⟨⟨first, last⟩, rfl⟩⟩))
    exact (mem_located_zero _ _ _).mp member
  done := by
    intro number items behind here item member pointer column
    have shown := (mem_located_zero _ _ _).mpr ⟨items, here, member⟩
    exact Nat.not_lt.mpr behind (lt_of_pointer starts own shown pointer column)

variable [LE α] [LinearCoordinate α]

omit [Add α] [DecidableLT α] [OfNat α 1] [Sub α] [Coordinate α] in
/-- No two markers of a row start in one column. -/
theorem nodup_starts {row : List (Marker α)} (wide : ∀ m ∈ row, m.start < m.stop)
    (ordered : row.Pairwise fun a b => a.stop ≤ b.start) : (row.map Marker.start).Nodup := by
  refine List.pairwise_map.mpr (ordered.imp_of_mem fun {a b} ha _ before same => ?_)
  obtain ⟨le, ne⟩ := LinearCoordinate.lt_iff.mp (wide a ha)
  exact ne (LinearCoordinate.le_antisymm le (same ▸ before))

/-- Messages stay connected to their markers. A row of markers from left to right is annotated
if each marker can be written. The first of its rows holds the markers in order; every message
has a place, where its lines are below each other, each of them once; and there is nothing else
but pointers. A message stands behind its marker if it can, and else hangs below it, connected
by pointers. -/
theorem hung_messages_connected {row : List (Marker α)} (wide : ∀ m ∈ row, m.start < m.stop)
    (ordered : row.Pairwise fun a b => a.stop ≤ b.start) :
    ((∃ rows, annotate? row = .ok rows) ↔ ∀ m ∈ row, m.fault? = none) ∧
    ∀ rows, annotate? row = .ok rows →
      (∃ first below, rows = first :: below ∧
        first.filter (fun item => item.role = .marker) = row.map Marker.item) ∧
      ∃ places : List (MessagePlace α), (places.map (·.marker)).Perm row ∧
        (located 0 rows).Perm
          (row.map (fun m => (0, m.item)) ++ places.flatMap MessagePlace.items ++
            places.flatMap (·.pointersFrom 1)) ∧
        ∀ m next, (m, next) ∈ withNext row → ∃ place ∈ places, place.marker = m ∧
          (m.message = none ∨ m.Inline next → place.number = 0 ∧ place.column = m.stop + 1) ∧
          (m.message ≠ none → ¬m.Inline next → place.Connected rows) := by
  refine ⟨?written, ?annotated⟩
  case written =>
    simp only [annotate?_eq_ok_iff, exists_and_left, exists_eq', and_true]
  case annotated =>
    intro rows written
    obtain ⟨_, rfl⟩ := annotate?_eq_ok_iff.mp written
    refine ⟨⟨firstRow row, _, annotate_eq row, filter_marker_firstRow row⟩,
      messagePlaces 0 row, map_marker_messagePlaces 0 row, located_annotate 0 row, ?_⟩
    intro m next own
    cases hangs : m.hangs next with
    | false =>
      refine ⟨_, standing_mem_messagePlaces own hangs 0, rfl, fun _ => ⟨rfl, rfl⟩, ?_⟩
      intro message hung
      have some_message := Option.isSome_iff_ne_none.mpr message
      rw [m.inline_iff] at hung
      simp [Marker.hangs, some_message, hung] at hangs
    | true =>
      obtain ⟨p, hp, rfl, column, below⟩ := exists_hung_place own hangs 0
      refine ⟨p, hp, rfl, ?_, fun _ _ => p.connected (nodup_starts wide ordered) hp column below⟩
      intro stands
      rw [Marker.hangs, Bool.and_eq_true, Bool.not_eq_true', Option.isSome_iff_ne_none] at hangs
      rw [p.marker.inline_iff] at stands
      rcases stands with silent | fits
      · exact absurd silent hangs.1
      · exact absurd fits (by simp [hangs.2])

end

namespace Sample

/-- A marker whose message hangs, one with a message behind it, and the last one. -/
def annotatedRow : List (Marker Nat) :=
  [⟨1, 3, .primary, 0, some "over\nhere"⟩, ⟨4, 5, .secondary, 1, some "a"⟩,
    ⟨9, 10, .secondary, 2, some "last\nof all"⟩]

/-- A single marker that is wider than any text. -/
def widestRow : List (Marker Nat) := [⟨1, Text.longest + 2, .primary, 0, none⟩]

end Sample

theorem hung_messages_connected_sample :
    ∃ (rows : List (List (RowItem Nat))) (place : MessagePlace Nat),
      annotate? Sample.annotatedRow = .ok rows ∧
        place.marker = ⟨1, 3, .primary, 0, some "over\nhere"⟩ ∧ place.Connected rows := by
  have wide : ∀ m ∈ Sample.annotatedRow, m.start < m.stop := by decide
  have ordered : Sample.annotatedRow.Pairwise fun a b => a.stop ≤ b.start := by decide
  obtain ⟨written, annotated⟩ := hung_messages_connected wide ordered
  obtain ⟨rows, eq⟩ := written.mpr (by decide +kernel)
  obtain ⟨_, _, _, _, each⟩ := annotated rows eq
  obtain ⟨place, _, marker, _, hung⟩ := each _ _ List.mem_cons_self
  have two_lines : ¬Marker.Inline (⟨1, 3, .primary, 0, some "over\nhere"⟩ : Marker Nat)
      (some ⟨4, 5, .secondary, 1, some "a"⟩) := by
    rw [Marker.inline_iff]
    decide +kernel
  exact ⟨rows, place, eq, marker, hung (by decide) two_lines⟩

/-- A marker that is wider than any text is not annotated, though it is alone on its row. -/
theorem widest_row_not_annotated :
    (∀ m ∈ Sample.widestRow, m.start < m.stop) ∧
      Sample.widestRow.Pairwise (fun a b => a.stop ≤ b.start) ∧
      annotate? Sample.widestRow = .error .tooLong := by
  decide +kernel

end Excerpt
