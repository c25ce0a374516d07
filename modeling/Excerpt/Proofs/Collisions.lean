import Excerpt.Proofs.Layout.Exact
import Excerpt.Proofs.Report
import Excerpt.Proofs.Spans

/-! No annotation row of a report collides as long as its columns are exact: its items are printed
at the columns the layout gives them. Where columns are rounded a marker can be left without a
glyph. -/
namespace Excerpt

open Layout (FileLabels)
open Number (exactLimit)

namespace Palette

variable (p : Palette)

theorem gap_toNumber {cursor column : Nat} (near : column ≤ exactLimit) :
    (if (cursor : Number) < (column : Number) then
        [Segment.plain (.repeated (Coordinate.toCount ((column : Number) - (cursor : Number))) ' ')]
      else []) = gap cursor column := by
  by_cases lt : cursor < column
  · rw [if_pos (LinearCoordinate.natCast_lt.mpr lt), gap, if_pos lt,
      Number.sub_natCast (Nat.le_of_lt lt) (by omega), Number.toCount_natCast]
  · rw [if_neg (mt LinearCoordinate.natCast_lt.mp lt), gap, if_neg lt]

theorem startFrom_toNumber {cursor : Nat} {item : RowItem Nat} (free : cursor ≤ item.column) :
    item.toNumber.startFrom (cursor : Number) = (item.column : Number) := by
  have column : item.toNumber.column = (item.column : Number) := rfl
  rw [RowItem.startFrom, column]
  by_cases lt : cursor < item.column
  · rw [if_pos (LinearCoordinate.natCast_lt.mpr lt)]
  · rw [if_neg (mt LinearCoordinate.natCast_lt.mp lt), Nat.le_antisymm free (Nat.le_of_not_lt lt)]

/-- The cursor only has to be exact where another item follows, and then it is. -/
theorem itemsFrom_toNumber {items : List (RowItem Nat)} (ordered : items.Pairwise RowItem.Precedes)
    {cursor : Nat} (free : ∀ item ∈ items, cursor ≤ item.column)
    (near : ∀ item ∈ items, item.column ≤ exactLimit) :
    p.itemsFrom (cursor : Number) (items.map RowItem.toNumber) = p.itemsFrom cursor items := by
  induction items generalizing cursor with
  | nil => rfl
  | cons item items ih =>
    obtain ⟨apart, rest⟩ := List.pairwise_cons.mp ordered
    obtain ⟨own, _⟩ := List.forall_mem_cons.mp free
    obtain ⟨here, further⟩ := List.forall_mem_cons.mp near
    have behind : ∀ other ∈ items, item.stop ≤ other.column :=
      fun other h => (apart other h).stop_le
    have later : p.itemsFrom ((item.column : Number) + (item.text.length : Number))
        (items.map RowItem.toNumber) = p.itemsFrom item.stop items := by
      cases items with
      | nil => rfl
      | cons next items =>
        have inside : item.column + item.text.length ≤ exactLimit :=
          Nat.le_trans (behind next List.mem_cons_self) (further next List.mem_cons_self)
        rw [Number.add_natCast inside]
        exact ih rest behind further
    rw [itemsFrom_cons, Nat.max_eq_right own, List.map_cons, itemsFrom, startFrom_toNumber own]
    exact congrArg₂ (fun gap rest => gap ++ p.label item.style item.role item.text :: rest)
      (gap_toNumber here) later

/-- A row of exact columns is written as in exact arithmetic. -/
theorem annotationSegments_toNumber (width : Nat) (slots : Slots) {items : List (RowItem Nat)}
    (apart : ItemsApart items) (near : ∀ item ∈ items, item.column ≤ exactLimit) :
    p.annotationSegments width ⟨slots, items.map RowItem.toNumber⟩ =
      p.annotationSegments width ⟨slots, items⟩ :=
  congrArg (p.rowPrefix width slots ++ ·)
    (p.itemsFrom_toNumber apart.ordered apart.column_pos near)

end Palette

/-- The items below the source lines of a report are at natural columns, from left to right and
apart, and before the trailing spaces of their row are trimmed each is printed at its column behind
the gutter, its space and the connectors. Only marks that end before the greatest exact column are
allowed on the line: then no column of it has been rounded. -/
theorem annotation_rows_apart {sources : Sources} {resolving config : Config} {d : Diagnostic}
    {labels : List (ResolvedLabel Number)}
    (resolved : d.resolveLabels sources resolving = .ok labels)
    {layout : FileLayout Number} (hl : layout ∈ layoutLabels sources config labels)
    {block : SourceBlock Number} (hb : .source block ∈ layout.blocks)
    (unrounded : (FileLabels.select sources config labels layout.file).ExactOn block.line)
    {row : AnnotationRow Number} (hr : row ∈ block.rows) (p : Palette) :
    ∃ items : List (RowItem Nat), row.items = items.map RowItem.toNumber ∧ ItemsApart items ∧
      Document.printed (p.annotationRow layout.gutterWidth row) =
        (Segment.chars (p.annotationSegments layout.gutterWidth row)).rdropWhile (· == ' ') ++
          ['\n'] ∧
      ∀ left item right, items = left ++ item :: right →
        p.Places (p.annotationSegments layout.gutterWidth row)
          (p.annotationSegments layout.gutterWidth ⟨row.slots, left.map RowItem.toNumber⟩) item
          ((Segment.chars (p.rowPrefix layout.gutterWidth row.slots)).length +
            item.column - 1) := by
  obtain ⟨l, _, rfl⟩ := Layout.mem_layoutLabels.mp hl
  obtain ⟨line, _, rfl⟩ := (FileLabels.source_mem_layout _).mp hb
  have counted : ∀ own ∈ (FileLabels.select sources config labels l.file).labels, own.Counted :=
    fun own ho => Diagnostic.counted_of_resolveLabels resolved own (FileLabels.mem_select.mp ho).1
  obtain ⟨items, eq, apart, near⟩ := unrounded.items counted hr
  refine ⟨items, eq, apart, p.printed_annotationRow _ row, ?_⟩
  intro left item right split
  obtain ⟨slots, own⟩ := row
  obtain rfl := eq
  obtain rfl := split
  have before : ItemsApart left := apart.sublist (List.sublist_append_left left (item :: right))
  have left_near : ∀ other ∈ left, other.column ≤ exactLimit :=
    fun other ho => near other (List.mem_append_left _ ho)
  rw [p.annotationSegments_toNumber _ slots apart near,
    p.annotationSegments_toNumber _ slots before left_near]
  exact p.places_annotationSegments _ apart

/-! ## One label -/

namespace Sample

def tabLine : Store := .ofList [("f", "a\tb")]

def partAlone : Diagnostic := ⟨.error, none, "m", [part], []⟩

def partExact : ResolvedLabel Number :=
  ⟨.primary, some "x", (0 : Nat), ⟨(1 : Nat), (2 : Nat)⟩, ⟨(1 : Nat), (6 : Nat)⟩, (0 : Nat)⟩

def tabLabels : FileLabels Number := .select tabLine.sources .standard [partExact] (0 : Nat)

theorem partExact_resolved :
    partAlone.resolveLabels tabLine.sources .standard = .ok [partExact] := by
  decide +kernel

theorem tab_rows : tabLabels.rowsOf (1 : Nat) =
    [[⟨(2 : Nat), (6 : Nat), .primary, (0 : Nat), some "x"⟩]] := by
  have marks : tabLabels.markersOf (1 : Nat) =
      [⟨(2 : Nat), (6 : Nat), .primary, (0 : Nat), some "x"⟩] := by
    decide +kernel
  rw [tabLabels.rowsOf_eq, marks, Marker.sort, List.mergeSort_singleton, markerRows, Marker.sort,
    List.mergeSort_singleton]
  rfl

end Sample

theorem annotation_rows_apart_sample :
    ∃ (labels : List (ResolvedLabel Number)) (layout : FileLayout Number)
        (block : SourceBlock Number) (row : AnnotationRow Number),
      Sample.partAlone.resolveLabels Sample.tabLine.sources .standard = .ok labels ∧
      layout ∈ layoutLabels Sample.tabLine.sources .standard labels ∧
      .source block ∈ layout.blocks ∧ row ∈ block.rows ∧
      row.items.map (·.column) = [((2 : Nat) : Number), ((7 : Nat) : Number)] ∧
      ∃ items : List (RowItem Nat), row.items = items.map RowItem.toNumber ∧ ItemsApart items := by
  let marker : Marker Number := ⟨(2 : Nat), (6 : Nat), .primary, (0 : Nat), some "x"⟩
  have layout : Sample.tabLabels.layout ∈
      layoutLabels Sample.tabLine.sources .standard [Sample.partExact] :=
    Layout.mem_layoutLabels.mpr ⟨Sample.partExact, by simp, rfl⟩
  have shown : Block.source (Sample.tabLabels.sourceBlock (1 : Nat)) ∈
      Sample.tabLabels.layout.blocks := by
    refine (FileLabels.source_mem_layout _).mpr ⟨(1 : Nat), mem_eachOnce.mpr ?_, rfl⟩
    exact List.mem_append_left _ (by decide +kernel)
  have unrounded : Sample.tabLabels.ExactOn (1 : Nat) := by
    unfold FileLabels.ExactOn
    decide +kernel
  have row : ⟨Sample.tabLabels.slotsAt (1 : Nat), marker.firstItems none⟩ ∈
      (Sample.tabLabels.sourceBlock (1 : Nat)).rows := by
    rw [FileLabels.mem_rows, Sample.tab_rows]
    exact ⟨rfl, _, List.mem_singleton_self _, by decide +kernel⟩
  obtain ⟨items, eq, apart, _⟩ := annotation_rows_apart Sample.partExact_resolved layout shown
    unrounded row ⟨.standard, .error⟩
  exact ⟨_, _, _, _, Sample.partExact_resolved, layout, shown, row, by decide +kernel, items, eq,
    apart⟩

/-! ## Two labels at one place behind a wide tab -/

namespace Sample

/-- Sources that leave the tab in front of a position out of its line. -/
def hidden : Sources where
  name _ := some "f"
  source _ := some "\t"
  lineCount _ := some 1
  lineRange _ _ := some ⟨0, 0⟩
  location _ _ := some ⟨1, 1⟩
  slice _ start stop := if start = stop then some "" else some "\t"

/-- The place behind that tab. -/
def behindHidden : Label := ⟨.primary, ⟨(0 : Nat), (1 : Nat), (1 : Nat)⟩, none⟩

def twiceBehind : Diagnostic := ⟨.error, none, "m", [behindHidden, behindHidden], []⟩

/-- Such a label is found in the greatest exact column. -/
def farFound (order : Nat) : ResolvedLabel Number :=
  ⟨.primary, none, (0 : Nat), ⟨(1 : Nat), exactLimit⟩, ⟨(1 : Nat), exactLimit⟩, order⟩

def farLabels : FileLabels Number := .select hidden wide [farFound 0, farFound 1] (0 : Nat)

def farMarker (order : Nat) : Marker Number := ⟨exactLimit, exactLimit, .primary, order, none⟩

theorem far_resolved : twiceBehind.resolveLabels hidden wide = .ok [farFound 0, farFound 1] := by
  decide +kernel

theorem far_rows : farLabels.rowsOf (1 : Nat) = [[farMarker 0, farMarker 1]] := by
  have marks : farLabels.markersOf (1 : Nat) = [farMarker 0, farMarker 1] := by decide +kernel
  have sorted : Marker.sort [farMarker 0, farMarker 1] = [farMarker 0, farMarker 1] :=
    List.mergeSort_of_pairwise (by decide +kernel)
  rw [farLabels.rowsOf_eq, marks, sorted, markerRows, sorted]
  decide +kernel

theorem far_lines : farLabels.labels.flatMap (ResolvedLabel.shownLines farLabels.config) =
    List.replicate 4 ((1 : Nat) : Number) := by
  decide +kernel

theorem far_lines_once :
    eachOnce (List.replicate 4 ((1 : Nat) : Number)) = [((1 : Nat) : Number)] :=
  eachOnce_replicate (by decide +kernel) 3

theorem far_shown : farLabels.shown = [((1 : Nat) : Number)] := by
  have context : contextLines farLabels.config farLabels.lineCount
      (List.replicate 4 ((1 : Nat) : Number)) = [] := by
    decide +kernel
  rw [FileLabels.shown, shownLines, far_lines, context, List.append_nil, far_lines_once]

theorem far_built : layoutFault? hidden wide [farFound 0, farFound 1] = none := by
  have none_connected : farLabels.columns = [] := by
    have none_multiline : [farFound 0, farFound 1].filter ResolvedLabel.isMultiline = [] := by
      decide +kernel
    show connectors [farFound 0, farFound 1] = []
    rw [connectors, none_multiline, ResolvedLabel.sort, List.mergeSort_nil, connectFrom]
  have few : shownFault? farLabels.config farLabels.lineCount farLabels.labels = none := by
    simp only [shownFault?, far_lines, far_lines_once]
    decide +kernel
  have line : farLabels.faultAt? (1 : Nat) = none := by
    have marks : farLabels.markersAt (1 : Nat) (farLabels.textAt (1 : Nat)) = _ := far_rows
    rw [FileLabels.faultAt?, marks]
    decide +kernel
  refine layoutFault?_of_one_line (fun f hf => ?_) none_connected far_shown few line
  obtain ⟨l, hl, rfl⟩ := Layout.mem_fileLabels.mp hf
  have here : l.file = (0 : Nat) := by
    simp only [List.mem_cons, List.not_mem_nil, or_false] at hl
    rcases hl with rfl | rfl <;> rfl
  rw [here]
  rfl

end Sample

/-- Behind a tab that is too wide a column and the next one are the same number: markers at the
same place stand on one row without a glyph. -/
theorem markers_vanish_behind_wide_tab :
    ∃ (labels : List (ResolvedLabel Number)) (layout : FileLayout Number)
        (block : SourceBlock Number) (row : AnnotationRow Number) (a b : RowItem Number),
      Sample.twiceBehind.resolveLabels Sample.hidden Sample.wide = .ok labels ∧
      layoutFault? Sample.hidden Sample.wide labels = none ∧
      layout ∈ layoutLabels Sample.hidden Sample.wide labels ∧
      .source block ∈ layout.blocks ∧ row ∈ block.rows ∧ row.items = [a, b] ∧
      ¬a.column < b.column ∧ a.role = .marker ∧ a.text.length = 0 := by
  have layout : Sample.farLabels.layout ∈
      layoutLabels Sample.hidden Sample.wide [Sample.farFound 0, Sample.farFound 1] :=
    Layout.mem_layoutLabels.mpr ⟨Sample.farFound 0, by simp, rfl⟩
  have shown : Block.source (Sample.farLabels.sourceBlock (1 : Nat)) ∈
      Sample.farLabels.layout.blocks := by
    refine (FileLabels.source_mem_layout _).mpr ⟨(1 : Nat), ?_, rfl⟩
    rw [Sample.far_shown]
    exact List.mem_singleton_self _
  have row : ⟨Sample.farLabels.slotsAt (1 : Nat),
      [(Sample.farMarker 0).item, (Sample.farMarker 1).item]⟩ ∈
      (Sample.farLabels.sourceBlock (1 : Nat)).rows := by
    rw [FileLabels.mem_rows, Sample.far_rows]
    exact ⟨rfl, _, List.mem_singleton_self _, by decide +kernel⟩
  refine ⟨_, _, _, _, _, _, Sample.far_resolved, Sample.far_built, layout, shown, row, rfl, ?_, rfl,
    ?_⟩
  · decide +kernel
  · decide +kernel

end Excerpt
