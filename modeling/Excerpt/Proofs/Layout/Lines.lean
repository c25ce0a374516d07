import Excerpt.Proofs.Layout.Blocks
import Excerpt.Proofs.Layout.Placement
import Excerpt.Proofs.Source.Position
import Mathlib.Data.List.Pairwise
import Mathlib.Data.List.Permutation

/-! The rows below a source line: the markers of all labels that touch the line,
each on one row, and rows of items that do not collide. -/
namespace Excerpt

/-- Of elements that are all different, one is picked once. -/
theorem flatMap_ite_of_mem {α β : Type} [DecidableEq α] {xs : List α} (nodup : xs.Nodup) {x : α}
    (member : x ∈ xs) (g : α → β) :
    (xs.flatMap fun other => if x = other then [g other] else []) = [g x] := by
  induction xs with
  | nil => simp at member
  | cons first xs ih =>
    obtain ⟨fresh, rest⟩ := List.nodup_cons.mp nodup
    rw [List.flatMap_cons]
    by_cases same : x = first
    · subst same
      have others : (xs.flatMap fun other => if x = other then [g other] else []) = [] := by
        apply List.flatMap_eq_nil_iff.mpr
        intro other h
        apply if_neg
        rintro rfl
        exact fresh h
      rw [if_pos rfl, others, List.append_nil]
    · rw [if_neg same, ih rest ((List.mem_cons.mp member).resolve_left same)]
      rfl

namespace ResolvedLabel

section

variable {α : Type} [DecidableEq α] {l : ResolvedLabel α} {line lineEnd : α}

theorem isMultiline_iff : l.isMultiline = true ↔ l.start.line ≠ l.stop.line := bne_iff_ne

theorem single_iff : l.isMultiline = false ↔ l.start.line = l.stop.line := bne_eq_false_iff_eq

variable [Add α] [Max α] [OfNat α 1]

/-- A marker of a label, which takes at least one column. -/
def marker (l : ResolvedLabel α) (start stop : α) (message : Option String) : Marker α :=
  ⟨start, max stop (start + 1), l.style, l.order, message⟩

theorem markers_of_single (single : l.isMultiline = false) :
    l.markers line lineEnd =
      if l.start.line = line then [l.marker l.start.column l.stop.column l.message] else [] := by
  rw [markers, single]
  rfl

theorem markers_of_multi (multi : l.isMultiline = true) :
    l.markers line lineEnd =
      (if l.start.line = line then [l.marker l.start.column lineEnd none] else []) ++
        (if l.stop.line = line then [l.marker 1 l.stop.column l.message] else []) := by
  rw [markers, multi]
  rfl

theorem marker_of_mem_markers {m : Marker α} (h : m ∈ l.markers line lineEnd) :
    ∃ start stop message, (start = l.start.column ∨ start = 1) ∧
      (stop = l.stop.column ∨ stop = lineEnd) ∧ m = l.marker start stop message := by
  cases kind : l.isMultiline with
  | false =>
    rw [markers_of_single kind, List.mem_ite_nil_right, List.mem_singleton] at h
    exact ⟨_, _, _, .inl rfl, .inl rfl, h.2⟩
  | true =>
    rw [markers_of_multi kind, List.mem_append, List.mem_ite_nil_right,
      List.mem_ite_nil_right, List.mem_singleton, List.mem_singleton] at h
    rcases h with ⟨_, rfl⟩ | ⟨_, rfl⟩
    · exact ⟨_, _, _, .inl rfl, .inr rfl, rfl⟩
    · exact ⟨_, _, _, .inr rfl, .inl rfl, rfl⟩

end

theorem proper_of_mem_markers {l : ResolvedLabel Nat} (h : l.Proper) {line lineEnd : Nat}
    {m : Marker Nat} (hm : m ∈ l.markers line lineEnd) : m.Proper := by
  obtain ⟨start, stop, message, first, _, rfl⟩ := marker_of_mem_markers hm
  have pos := h.start_pos
  exact ⟨show 1 ≤ start by omega, show start < max stop (start + 1) by omega⟩

end ResolvedLabel

/-- The items of one kind below a line, each with the number of its row. -/
def SourceBlock.items (block : SourceBlock Nat) (role : Role) : List (Nat × RowItem Nat) :=
  ofRole role (numbered 0 (block.rows.map (·.items)))

namespace Layout.FileLabels

section

variable {α : Type} [Add α] [Sub α] [Mod α] [Max α] [LT α] [DecidableLT α] [LE α]
  [DecidableLE α] [DecidableEq α] [OfNat α 0] [OfNat α 1] [NatCast α] [Coordinate α]
  (f : FileLabels α) (line : α)

/-- The column behind the text of a line. -/
def lineEnd : α := 1 + Columns.width f.tabWidth (f.textAt line)

/-- What the labels mark on a line. -/
def markersOf : List (Marker α) := f.labels.flatMap (ResolvedLabel.markers line (f.lineEnd line))

/-- The rows of markers of a line. -/
def rowsOf : List (List (Marker α)) := f.markersAt line (f.textAt line)

theorem rowsOf_eq : f.rowsOf line = markerRows (Marker.sort (f.markersOf line)) := rfl

theorem flatten_rowsOf : (f.rowsOf line).flatten.Perm (f.markersOf line) :=
  (flatten_markerRows _).trans (Marker.sort_perm _)

theorem items_sourceBlock :
    (f.sourceBlock line).rows.map (·.items) = (f.rowsOf line).flatMap annotate := by
  simp only [sourceBlock, List.map_map, rowsOf]
  exact List.map_id _

variable {f line} in
/-- The rows below a line are those of its rows of markers, beside the connectors of the line. -/
theorem mem_rows {row : AnnotationRow α} : row ∈ (f.sourceBlock line).rows ↔
    row.slots = (f.sourceBlock line).slots ∧
      ∃ markers ∈ f.rowsOf line, row.items ∈ annotate markers := by
  rw [← List.mem_flatMap]
  constructor
  · intro h
    obtain ⟨items, member, rfl⟩ := List.mem_map.mp h
    exact ⟨rfl, member⟩
  · obtain ⟨slots, items⟩ := row
    rintro ⟨rfl, member⟩
    exact List.mem_map_of_mem member

end

variable (f : FileLabels Nat) (line : Nat)

theorem rowsOf_apart (proper : ∀ l ∈ f.labels, l.Proper) :
    ∀ row ∈ f.rowsOf line, MarkersApart row := by
  apply markerRows_apart
  intro m hm
  obtain ⟨l, hl, own⟩ := List.mem_flatMap.mp ((Marker.sort_perm _).mem_iff.mp hm)
  exact ResolvedLabel.proper_of_mem_markers (proper l hl) own

theorem items_ofRole (role : Role) : (f.sourceBlock line).items role =
    ofRole role (numbered 0 ((f.rowsOf line).flatMap annotate)) := by
  rw [SourceBlock.items, items_sourceBlock]

/-- No row below a line collides. -/
theorem items_apart (proper : ∀ l ∈ f.labels, l.Proper) {row : AnnotationRow Nat}
    (h : row ∈ (f.sourceBlock line).rows) : ItemsApart row.items := by
  obtain ⟨_, markers, hm, own⟩ := mem_rows.mp h
  exact annotate_apart (f.rowsOf_apart line proper markers hm) row.items own

/-- The markers of a line with the numbers of their annotation rows. -/
def marksOf : List (Nat × Marker Nat) := numberedMarkers (f.rowsOf line)

theorem marksOf_perm : ((f.marksOf line).map (·.2)).Perm (f.markersOf line) :=
  (numberedMarkers_perm _).trans (f.flatten_rowsOf line)

theorem items_marksOf :
    (f.sourceBlock line).items .marker =
      (f.marksOf line).map fun (number, m) => (number, m.item) := by
  rw [items_ofRole, markers_annotateAll]
  rfl

theorem row_of_mem_marksOf {mark : Nat × Marker Nat} (h : mark ∈ f.marksOf line) :
    ∃ row, (f.sourceBlock line).rows[mark.1]? = some row ∧ mark.2.item ∈ row.items := by
  have found : (mark.1, mark.2.item) ∈ (f.sourceBlock line).items .marker :=
    f.items_marksOf line ▸ List.mem_map_of_mem h
  obtain ⟨items, at_number, member⟩ :=
    (mem_numbered_zero _ _ _).mp (List.mem_of_mem_filter found)
  rw [List.getElem?_map] at at_number
  obtain ⟨row, here, rfl⟩ := Option.map_eq_some_iff.mp at_number
  exact ⟨row, here, member⟩

/-- Markers on one row of a line do not share a column. -/
theorem marksOf_apart (proper : ∀ l ∈ f.labels, l.Proper) {a b : Nat × Marker Nat}
    (ha : a ∈ f.marksOf line) (hb : b ∈ f.marksOf line) (differ : a ≠ b) (row : a.1 = b.1) :
    a.2.Before b.2 ∨ b.2.Before a.2 := by
  let Apart (a b : Nat × Marker Nat) : Prop := a.1 = b.1 → a.2.Before b.2 ∨ b.2.Before a.2
  have symmetric : Std.Symm Apart := ⟨fun a b apart same => (apart same.symm).symm⟩
  have apart : (f.marksOf line).Pairwise Apart :=
    (numberedMarkers_apart (f.rowsOf_apart line proper)).imp fun before same => .inl (before same)
  exact apart.forall ha hb differ row

end Layout.FileLabels

/-- Labels on one line of a file, none of them connected, are laid out if that line can be. -/
theorem layoutFault?_of_one_line {α : Type} [Add α] [Sub α] [Mod α] [Max α] [Min α] [LT α]
    [DecidableLT α] [LE α] [DecidableLE α] [DecidableEq α] [OfNat α 0] [OfNat α 1] [NatCast α]
    [Coordinate α] {sources : Sources} {config : Config} {labels : List (ResolvedLabel α)}
    {own : Layout.FileLabels α} {line : α}
    (alone : ∀ f ∈ fileLabels sources config labels, f = own) (bare : own.columns = [])
    (shown : own.shown = [line])
    (few : shownFault? own.config own.lineCount own.labels = none)
    (short : own.faultAt? line = none) : layoutFault? sources config labels = none := by
  have none_connected : ¬mostAtOnce < own.columns.length := by
    rw [bare]
    exact Nat.not_lt_zero _
  have built : own.fault? = none := by
    simp only [Layout.FileLabels.fault?, none_connected, if_false, few, shown,
      List.findSome?_singleton, short, Option.map_none]
  rw [layoutFault?, List.findSome?_eq_none_iff]
  intro f hf
  rw [alone f hf, built]

namespace Sample

def labels : List (ResolvedLabel Nat) := [partFound, wholeFound]

def fileLabels : Layout.FileLabels Nat := .select store.sources .standard labels (0 : Nat)

theorem lineCount : fileLabels.lineCount = 3 := by
  have known := store.sources_lineCount (0 : Nat)
  show ((store.sources.lineCount (0 : Nat)).getD 0 : Nat) = 3
  rw [known, file_zero]
  rfl

theorem shown : fileLabels.shown = [1, 2, 3] := by
  rw [Layout.FileLabels.shown, lineCount]
  cbv

theorem layout_mem : fileLabels.layout ∈ layoutLabels store.sources .standard labels :=
  Layout.mem_layoutLabels.mpr ⟨partFound, by simp [labels], rfl⟩

theorem blocks : fileLabels.layout.blocks = [.source (fileLabels.sourceBlock 1),
    .source (fileLabels.sourceBlock 2), .source (fileLabels.sourceBlock 3)] := by
  show fileLabels.blocksAfter none fileLabels.shown = _
  rw [shown]
  rfl

end Sample
end Excerpt
