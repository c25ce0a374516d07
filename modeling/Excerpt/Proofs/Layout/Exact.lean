import Excerpt.Proofs.Layout.Lines
import Excerpt.Proofs.Number.Counted

/-! Rows in binary64. Where every mark of a line ends before the greatest exact column, no column
below the line has been rounded: its rows are those of exact arithmetic. -/
namespace Excerpt

open Number (Counted exactLimit)

/-- An item whose column is counted in binary64. -/
def RowItem.toNumber (item : RowItem Nat) : RowItem Number :=
  ⟨item.column, item.role, item.style, item.text⟩

namespace Marker

/-- A marker whose columns are counted in binary64. -/
def toNumber (m : Marker Nat) : Marker Number := ⟨m.start, m.stop, m.style, m.order, m.message⟩

/-- Behind a marker there is another exact column. -/
structure Exact (m : Marker Nat) : Prop extends m.Proper where
  stop_lt : m.stop < exactLimit

/-- Markers that are exact one by one are exact together. -/
theorem exists_map_toNumber {markers : List (Marker Number)}
    (h : ∀ m ∈ markers, ∃ own : Marker Nat, own.Exact ∧ own.toNumber = m) :
    ∃ exacts : List (Marker Nat), (∀ m ∈ exacts, m.Exact) ∧ markers = exacts.map toNumber := by
  induction markers with
  | nil => exact ⟨[], by simp, rfl⟩
  | cons m ms ih =>
    obtain ⟨⟨own, sharp, rfl⟩, others⟩ := List.forall_mem_cons.mp h
    obtain ⟨exacts, all, rfl⟩ := ih others
    exact ⟨own :: exacts, List.forall_mem_cons.mpr ⟨sharp, all⟩, rfl⟩

/-! ## Rows of markers -/

theorem inOrder_toNumber (a b : Marker Nat) : a.toNumber.inOrder b.toNumber = a.inOrder b := by
  simp only [inOrder, Excerpt.inOrder, toNumber, LinearCoordinate.natCast_lt, Nat.cast_id]

theorem sort_toNumber (markers : List (Marker Nat)) :
    sort (markers.map toNumber) = (sort markers).map toNumber :=
  (List.map_mergeSort fun a _ b _ => (inOrder_toNumber a b).symm).symm

theorem fitsBehind_toNumber (m : Marker Nat) (row : List (Marker Nat)) :
    m.toNumber.fitsBehind (row.map toNumber) = m.fitsBehind row := by
  rw [fitsBehind, fitsBehind, List.getLast?_map]
  cases row.getLast? with
  | none => rfl
  | some last => exact decide_eq_decide.mpr LinearCoordinate.natCast_le

end Marker

theorem placeMarker_toNumber (m : Marker Nat) (rows : List (List (Marker Nat))) :
    placeMarker m.toNumber (rows.map (List.map Marker.toNumber)) =
      (placeMarker m rows).map (List.map Marker.toNumber) := by
  induction rows with
  | nil => rfl
  | cons row rows ih =>
    rw [List.map_cons, placeMarker, placeMarker, Marker.fitsBehind_toNumber, ih]
    split <;> simp

theorem markerRows_toNumber (markers : List (Marker Nat)) :
    markerRows (markers.map Marker.toNumber) =
      (markerRows markers).map (List.map Marker.toNumber) := by
  have placed (ms : List (Marker Nat)) (rows : List (List (Marker Nat))) :
      (ms.map Marker.toNumber).foldl (fun rows m => placeMarker m rows)
          (rows.map (List.map Marker.toNumber)) =
        (ms.foldl (fun rows m => placeMarker m rows) rows).map (List.map Marker.toNumber) := by
    induction ms generalizing rows with
    | nil => rfl
    | cons m ms ih =>
      rw [List.map_cons, List.foldl_cons, List.foldl_cons, placeMarker_toNumber, ih]
  rw [markerRows, Marker.sort_toNumber]
  exact placed (Marker.sort markers) []

/-! ## Annotation rows -/

namespace Marker

variable {m : Marker Nat}

theorem Exact.item (h : m.Exact) : m.toNumber.item = m.item.toNumber := by
  have wide := h.start_lt_stop
  have near := h.stop_lt
  have extent : m.toNumber.stop - m.toNumber.start = ((m.stop - m.start : Nat) : Number) :=
    Number.sub_natCast (Nat.le_of_lt wide) (by omega)
  rw [Marker.item, extent, Number.toCount_natCast]
  rfl

theorem Exact.behind (h : m.Exact) : m.toNumber.behind = (m.behind : Number) :=
  Number.add_natCast h.stop_lt

/-- Also where the end of a message is rounded, it is rounded to what is behind the next marker. -/
theorem Exact.fitsBefore (h : m.Exact) {next : Option (Marker Nat)}
    (others : ∀ n ∈ next, n.Exact) :
    m.toNumber.fitsBefore (next.map toNumber) = m.fitsBefore next := by
  cases next with
  | none => rfl
  | some next =>
    have sharp := others next rfl
    have near : next.start < exactLimit := Nat.lt_trans sharp.start_lt_stop sharp.stop_lt
    rw [Bool.eq_iff_iff, Option.map_some, fitsBefore_some_iff, fitsBefore_some_iff, h.behind]
    simp only [toNumber, messageLines, Number.add_lt_natCast (Nat.le_of_lt near), Nat.cast_id]

theorem Exact.firstItems (h : m.Exact) {next : Option (Marker Nat)}
    (others : ∀ n ∈ next, n.Exact) :
    m.toNumber.firstItems (next.map toNumber) = (m.firstItems next).map RowItem.toNumber := by
  rw [Marker.firstItems, Marker.firstItems, h.fitsBefore others, h.item, h.behind, List.map_cons]
  split
  · rw [List.map_map]
    rfl
  · rfl

theorem Exact.hangs (h : m.Exact) {next : Option (Marker Nat)} (others : ∀ n ∈ next, n.Exact) :
    m.toNumber.hangs (next.map toNumber) = m.hangs next := by
  rw [Marker.hangs, Marker.hangs, h.fitsBefore others]
  rfl

end Marker

variable {row : List (Marker Nat)}

theorem firstRow_toNumber (each : ∀ m ∈ row, m.Exact) :
    firstRow (row.map Marker.toNumber) = (firstRow row).map RowItem.toNumber := by
  induction row with
  | nil => rfl
  | cons m ms ih =>
    obtain ⟨own, others⟩ := List.forall_mem_cons.mp each
    have next : ∀ n ∈ ms.head?, n.Exact := fun n hn => others n (List.mem_of_mem_head? hn)
    rw [List.map_cons, firstRow_cons, firstRow_cons, List.head?_map, own.firstItems next, ih others,
      List.map_append]

theorem hanging_toNumber (each : ∀ m ∈ row, m.Exact) :
    hanging (row.map Marker.toNumber) = (hanging row).map Marker.toNumber := by
  induction row with
  | nil => rfl
  | cons m ms ih =>
    obtain ⟨own, others⟩ := List.forall_mem_cons.mp each
    have next : ∀ n ∈ ms.head?, n.Exact := fun n hn => others n (List.mem_of_mem_head? hn)
    have rest := ih others
    simp only [hanging, List.map_cons, withNext, List.head?_map, List.filter_cons, own.hangs next]
      at rest ⊢
    split
    · rw [List.map_cons, rest]
      rfl
    · exact rest

theorem pointers_toNumber (pointed : List (Marker Nat)) :
    (pointed.map Marker.toNumber).map Marker.pointer =
      (pointed.map Marker.pointer).map RowItem.toNumber := by
  rw [List.map_map, List.map_map]
  rfl

theorem messageRows_toNumber (pointed : List (Marker Nat)) (m : Marker Nat) (column : Nat)
    (lines : List String) :
    lines.map (fun text => (pointed.map Marker.toNumber).map Marker.pointer ++
        [m.toNumber.messageAt (column : Number) text]) =
      (lines.map fun text => pointed.map Marker.pointer ++ [m.messageAt column text]).map
        (List.map RowItem.toNumber) := by
  rw [pointers_toNumber, List.map_map (l := lines)]
  apply List.map_congr_left
  intro text _
  rw [Function.comp_apply, List.map_append]
  rfl

theorem tailRows_toNumber (each : ∀ m ∈ row, m.Exact) :
    tailRows (row.map Marker.toNumber) = (tailRows row).map (List.map RowItem.toNumber) := by
  rw [tailRows, tailRows, List.getLast?_map, hanging_toNumber each]
  cases found : row.getLast? with
  | none => rfl
  | some last =>
    have own := each last (List.mem_of_getLast? found)
    simp only [Option.map_some, own.behind]
    exact messageRows_toNumber (hanging row) last last.behind (last.messageLines.drop 1)

theorem hangingRows_toNumber (markers : List (Marker Nat)) :
    hangingRows (markers.map Marker.toNumber) =
      (hangingRows markers).map (List.map RowItem.toNumber) := by
  induction markers with
  | nil => rfl
  | cons m left ih =>
    rw [List.map_cons, hangingRows, hangingRows, ih, List.map_append, ← List.map_reverse,
      ← messageRows_toNumber]
    rfl

theorem belowRows_toNumber (each : ∀ m ∈ row, m.Exact) :
    belowRows (row.map Marker.toNumber) = (belowRows row).map (List.map RowItem.toNumber) := by
  rw [belowRows, belowRows, hanging_toNumber each]
  cases hanging row with
  | nil => rfl
  | cons m pending =>
    have below := hangingRows_toNumber (m :: pending).reverse
    rw [List.map_reverse] at below
    exact congrArg₂ List.cons (pointers_toNumber (m :: pending)) below

theorem annotate_toNumber (each : ∀ m ∈ row, m.Exact) :
    annotate (row.map Marker.toNumber) = (annotate row).map (List.map RowItem.toNumber) := by
  rw [annotate_eq, annotate_eq, firstRow_toNumber each, tailRows_toNumber each,
    belowRows_toNumber each, List.map_cons, List.map_append]

/-- All items start at exact columns. -/
theorem column_le_of_mem_annotate (each : ∀ m ∈ row, m.Exact) {items : List (RowItem Nat)}
    (hr : items ∈ annotate row) : ∀ item ∈ items, item.column ≤ exactLimit := by
  intro item hi
  obtain ⟨m, hm, annotates⟩ := annotates_of_mem_annotate hr item hi
  have wide := (each m hm).start_lt_stop
  have near := (each m hm).stop_lt
  cases annotates with
  | marker => exact Nat.le_of_lt (Nat.lt_trans wide near)
  | pointer => exact Nat.le_of_lt (Nat.lt_trans wide near)
  | behind => exact near
  | below => exact Nat.le_of_lt (Nat.lt_trans wide near)

/-! ## Marks of a line -/

/-- What any sources make of a label in binary64. -/
structure ResolvedLabel.Counted (l : ResolvedLabel Number) : Prop where
  start : Number.Counted 1 l.start.column
  stop : Number.Counted 1 l.stop.column
  order : ∃ order : Nat, l.order = (order : Number)

/-- A mark that ends before the greatest exact column has not been rounded. -/
theorem ResolvedLabel.Counted.exact_of_mem_markers {l : ResolvedLabel Number} (h : l.Counted)
    {line lineEnd : Number} (counted : Number.Counted 1 lineEnd) {m : Marker Number}
    (hm : m ∈ l.markers line lineEnd) (near : m.stop < (exactLimit : Number)) :
    ∃ own : Marker Nat, own.Exact ∧ own.toNumber = m := by
  obtain ⟨start, stop, message, first, last, rfl⟩ := marker_of_mem_markers hm
  have from_one : Number.Counted 1 start := by
    rcases first with rfl | rfl
    · exact h.start
    · exact .natCast (Nat.le_refl 1)
  have to_end : Number.Counted 1 stop := by
    rcases last with rfl | rfl
    · exact h.stop
    · exact counted
  obtain ⟨order, own⟩ := h.order
  obtain ⟨near_stop, near_start⟩ := Number.lt_of_max_lt near
  obtain ⟨b, _, _, rfl⟩ := to_end.eq_natCast_of_lt near_stop
  obtain ⟨a, pos, inside, rfl⟩ := from_one.eq_natCast_of_add_lt (m := 1) (Nat.le_refl _) near_start
  have one_more : (a : Number) + 1 = ((a + 1 : Nat) : Number) :=
    Number.add_natCast (Nat.le_of_lt inside)
  refine ⟨⟨a, max b (a + 1), l.style, order, message⟩, ⟨⟨pos, ?_⟩, ?_⟩, ?_⟩
  · show a < max b (a + 1)
    omega
  · show max b (a + 1) < exactLimit
    have := LinearCoordinate.natCast_lt.mp near_stop
    omega
  · rw [marker, one_more, Number.max_natCast, own]
    rfl

theorem Diagnostic.counted_of_resolveLabels {sources : Sources} {config : Config} {d : Diagnostic}
    {labels : List (ResolvedLabel Number)} (h : d.resolveLabels sources config = .ok labels) :
    ∀ l ∈ labels, l.Counted := by
  have column := Columns.counted_behind config.tabWidth_pos
  intro l hl
  obtain ⟨order, found⟩ := List.mem_iff_getElem?.mp hl
  obtain ⟨_, _, resolved⟩ := (resolveLabels_getElem? h order l).mp found
  obtain ⟨start, stop, ends, rfl⟩ := Label.resolve_eq_ok_iff.mp resolved
  obtain ⟨_, _, first, last⟩ := Span.resolve_eq_ok_iff.mp ends
  obtain ⟨_, _, _, _, _, _, rfl⟩ := Span.position_eq_ok_iff.mp first
  obtain ⟨_, _, _, _, _, _, rfl⟩ := Span.position_eq_ok_iff.mp last
  exact ⟨column _, column _, order, rfl⟩

namespace Layout.FileLabels

variable {f : FileLabels Number} {line : Number}

/-- Behind every mark of a line there is another exact column. -/
def ExactOn (f : FileLabels Number) (line : Number) : Prop :=
  ∀ m ∈ f.markersOf line, m.stop < (exactLimit : Number)

theorem ExactOn.markersOf (h : f.ExactOn line) (counted : ∀ l ∈ f.labels, l.Counted) :
    ∃ markers : List (Marker Nat), (∀ m ∈ markers, m.Exact) ∧
      f.markersOf line = markers.map Marker.toNumber := by
  apply Marker.exists_map_toNumber
  intro m hm
  obtain ⟨l, hl, own⟩ := List.mem_flatMap.mp hm
  have lineEnd : Counted 1 (f.lineEnd line) := Columns.counted_behind f.config.tabWidth_pos _
  exact (counted l hl).exact_of_mem_markers lineEnd own (h m hm)

/-- The rows of markers of an exact line are those of exact arithmetic. -/
theorem ExactOn.rowsOf (h : f.ExactOn line) (counted : ∀ l ∈ f.labels, l.Counted) :
    ∃ rows : List (List (Marker Nat)),
      (∀ row ∈ rows, MarkersApart row ∧ ∀ m ∈ row, m.Exact) ∧
      f.rowsOf line = rows.map (List.map Marker.toNumber) := by
  obtain ⟨markers, each, eq⟩ := h.markersOf counted
  refine ⟨markerRows (Marker.sort markers), ?_, ?_⟩
  · have sorted : ∀ m ∈ Marker.sort markers, m.Exact :=
      fun m hm => each m ((Marker.sort_perm markers).mem_iff.mp hm)
    intro row hr
    refine ⟨markerRows_apart (fun m hm => (sorted m hm).toProper) row hr, fun m hm => ?_⟩
    exact sorted m ((flatten_markerRows _).mem_iff.mp (List.mem_flatten.mpr ⟨row, hr, hm⟩))
  · rw [f.rowsOf_eq, eq, Marker.sort_toNumber, markerRows_toNumber]

/-- The annotation rows of an exact line are those of exact arithmetic. -/
theorem ExactOn.items (h : f.ExactOn line) (counted : ∀ l ∈ f.labels, l.Counted)
    {row : AnnotationRow Number} (hr : row ∈ (f.sourceBlock line).rows) :
    ∃ items : List (RowItem Nat), row.items = items.map RowItem.toNumber ∧ ItemsApart items ∧
      ∀ item ∈ items, item.column ≤ exactLimit := by
  obtain ⟨rows, apart, eq⟩ := h.rowsOf counted
  obtain ⟨_, _, found, own⟩ := mem_rows.mp hr
  rw [eq] at found
  obtain ⟨markers, hm, rfl⟩ := List.mem_map.mp found
  obtain ⟨ordered, each⟩ := apart markers hm
  rw [annotate_toNumber each] at own
  obtain ⟨items, hi, same⟩ := List.mem_map.mp own
  exact ⟨items, same.symm, annotate_apart ordered items hi, column_le_of_mem_annotate each hi⟩

end Layout.FileLabels
end Excerpt
