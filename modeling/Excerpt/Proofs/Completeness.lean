import Excerpt.Proofs.Layout.Lines
import Mathlib.Data.List.Count
import Mathlib.Data.List.Nodup

/-! A layout loses nothing and repeats nothing: below the lines of a file stand the
underlines of its labels and the lines of their messages, each once. -/
namespace Excerpt

open Layout (FileLabels)

/-- The items of one kind in a file, each with its line and the number of its row
below the line. -/
def FileLayout.items (layout : FileLayout Nat) (role : Role) : List (Nat × Nat × RowItem Nat) :=
  (sourceBlocks layout.blocks).flatMap fun block => (block.items role).map (block.line, ·)

/-- The columns from `start` up to but not including `stop`. -/
def LabelStyle.underline (style : LabelStyle) (start stop : Nat) : RowItem Nat :=
  ⟨start, .marker, style, .repeated (stop - start) style.glyph⟩

namespace ResolvedLabel

/-- What a label marks, each part with its line. -/
def underlines (sources : Sources) (config : Config) (l : ResolvedLabel Nat) :
    List (Nat × RowItem Nat) :=
  let lineEnd := 1 + Columns.width config.tabWidth (sources.line l.file (l.start.line : Number))
  if l.isMultiline then
    [(l.start.line, l.style.underline l.start.column (max lineEnd (l.start.column + 1))),
      (l.stop.line, l.style.underline 1 (max l.stop.column 2))]
  else [(l.start.line, l.style.underline l.start.column (max l.stop.column (l.start.column + 1)))]

/-- The lines of the message of a label, below each other from a row and a column on. -/
def lettering (l : ResolvedLabel Nat) (number column : Nat) : List (Nat × Nat × RowItem Nat) :=
  ((l.message.elim [] Text.lines).zipIdx number).map fun (text, number) =>
    (l.stop.line, number, ⟨column, .message, l.style, text⟩)

/-- The marker that a label has besides its last one, if any. It has no message. -/
def opening (l : ResolvedLabel Nat) (lineEnd : Nat) : List (Nat × Marker Nat) :=
  if l.isMultiline then [(l.start.line, l.marker l.start.column lineEnd none)] else []

/-- The last marker of a label, with its message. -/
def closing (l : ResolvedLabel Nat) : Nat × Marker Nat :=
  (l.stop.line, l.marker (if l.isMultiline then 1 else l.start.column) l.stop.column l.message)

end ResolvedLabel

/-- A list whose images can be reordered can be reordered itself. -/
theorem exists_perm_of_map_perm {α β : Type} {g : α → β} {xs : List α} {ys : List β}
    (h : ys.Perm (xs.map g)) : ∃ zs : List α, zs.Perm xs ∧ zs.map g = ys := by
  have images : List.Forall₂ (fun y x => y = g x) (xs.map g) xs :=
    List.forall₂_map_left_iff.mpr (List.forall₂_same.mpr fun _ _ => rfl)
  obtain ⟨zs, same, perm⟩ := List.perm_comp_forall₂ h images
  refine ⟨zs, perm, ?_⟩
  clear h images perm
  induction same with
  | nil => rfl
  | cons eq _ ih => rw [List.map_cons, ih, eq]

namespace Layout.FileLabels

variable (f : FileLabels Nat)

/-- The lines a label touches hold its markers. -/
theorem markers_over_lines {lines : List Nat} (nodup : lines.Nodup) {l : ResolvedLabel Nat}
    (first : l.start.line ∈ lines) (last : l.stop.line ∈ lines) :
    (lines.flatMap fun line => (l.markers line (f.lineEnd line)).map (line, ·)).Perm
      (l.opening (f.lineEnd l.start.line) ++ [l.closing]) := by
  cases kind : l.isMultiline with
  | false =>
    have line := ResolvedLabel.single_iff.mp kind
    have each (line : Nat) : (l.markers line (f.lineEnd line)).map (line, ·) =
        if l.start.line = line then [(line, l.marker l.start.column l.stop.column l.message)]
        else [] := by
      rw [ResolvedLabel.markers_of_single kind]
      split <;> rfl
    simp only [each]
    rw [flatMap_ite_of_mem nodup first, ResolvedLabel.opening, ResolvedLabel.closing, kind, line]
    rfl
  | true =>
    have each (line : Nat) : (l.markers line (f.lineEnd line)).map (line, ·) =
        (if l.start.line = line then [(line, l.marker l.start.column (f.lineEnd line) none)]
          else []) ++
        if l.stop.line = line then [(line, l.marker 1 l.stop.column l.message)] else [] := by
      rw [ResolvedLabel.markers_of_multi kind, List.map_append]
      congr 1
      · split <;> rfl
      · split <;> rfl
    simp only [each]
    apply (List.flatMap_append_perm lines _ _).symm.trans
    rw [flatMap_ite_of_mem nodup first, flatMap_ite_of_mem nodup last, ResolvedLabel.opening,
      ResolvedLabel.closing, kind]
    rfl

/-- The shown lines hold the markers of all labels. -/
theorem markers_shown :
    (f.shown.flatMap fun line => (f.markersOf line).map (line, ·)).Perm
      (f.labels.flatMap fun l => l.opening (f.lineEnd l.start.line) ++ [l.closing]) := by
  simp only [markersOf, List.map_flatMap]
  apply (flatMap_perm_swap _ _ _).trans
  apply List.Perm.flatMap_left _
  intro l hl
  exact f.markers_over_lines f.shown_nodup (f.start_mem_shown hl) (f.stop_mem_shown hl)

theorem items_layout (role : Role) :
    f.layout.items role = f.shown.flatMap fun line =>
      (ofRole role (numbered 0 ((f.rowsOf line).flatMap annotate))).map (line, ·) := by
  rw [FileLayout.items, sourceBlocks_layout, List.flatMap_map]
  simp only [items_ofRole]
  rfl

/-- The underlines of a file are those of its labels. -/
theorem markers_layout :
    ((f.layout.items .marker).map fun (line, _, item) => (line, item)).Perm
      (f.labels.flatMap fun l =>
        (l.opening (f.lineEnd l.start.line) ++ [l.closing]).map fun (line, m) =>
          (line, m.item)) := by
  have placed : ((f.layout.items .marker).map fun (line, _, item) => (line, item)).Perm
      ((f.shown.flatMap fun line => (f.markersOf line).map (line, ·)).map
        fun (line, m) => (line, m.item)) := by
    rw [items_layout, List.map_flatMap, List.map_flatMap]
    apply List.Perm.flatMap_left _
    intro line _
    rw [markers_annotateAll, List.map_map, List.map_map, List.map_map]
    have own := (numberedMarkers_perm (f.rowsOf line)).trans (f.flatten_rowsOf line)
    have images := own.map fun m => (line, m.item)
    rwa [List.map_map] at images
  apply placed.trans
  rw [← List.map_flatMap]
  exact f.markers_shown.map _

/-- The places of the messages below a line, with the line. -/
def places : List (Nat × MessagePlace Nat) :=
  f.shown.flatMap fun line => (stacked messagePlaces 0 (f.rowsOf line)).map (line, ·)

theorem messages_layout :
    f.layout.items .message = f.places.flatMap fun (line, p) => p.items.map (line, ·) := by
  rw [items_layout, places, List.flatMap_assoc]
  congr 1
  funext line
  rw [messages_annotateAll, List.map_flatMap, List.flatMap_map]

theorem markers_places :
    (f.places.map fun (line, p) => (line, p.marker)).Perm
      (f.labels.flatMap fun l => l.opening (f.lineEnd l.start.line) ++ [l.closing]) := by
  refine List.Perm.trans ?_ f.markers_shown
  rw [places, List.map_flatMap]
  apply List.Perm.flatMap_left _
  intro line _
  have own := ((messagePlaces_perm (f.rowsOf line)).trans (f.flatten_rowsOf line)).map (line, ·)
  rw [List.map_map] at own ⊢
  exact own

end Layout.FileLabels

namespace ResolvedLabel

variable {l : ResolvedLabel Nat}

theorem items_markers (f : FileLabels Nat) (own : l.file = f.file) :
    ((l.opening (f.lineEnd l.start.line) ++ [l.closing]).map fun (line, m) => (line, m.item)) =
      l.underlines f.sources f.config := by
  rw [underlines, own, opening, closing]
  cases kind : l.isMultiline with
  | true => rfl
  | false =>
    rw [single_iff.mp kind]
    rfl

/-- A marker with the message of a label writes its lettering. -/
theorem items_closing {line : Nat} {place : MessagePlace Nat}
    (own : (line, place.marker) = l.closing) :
    place.items.map (line, ·) = l.lettering place.number place.column := by
  obtain ⟨marker, number, column⟩ := place
  obtain ⟨rfl, rfl⟩ := Prod.mk.inj own
  rw [MessagePlace.items, List.map_map]
  rfl

theorem items_opening {lineEnd line : Nat} {place : MessagePlace Nat}
    (own : (line, place.marker) ∈ l.opening lineEnd) : place.items = [] := by
  obtain ⟨marker, number, column⟩ := place
  rw [opening, List.mem_ite_nil_right, List.mem_singleton, Prod.mk.injEq] at own
  obtain ⟨_, _, rfl⟩ := own
  rfl

theorem letterings_of_places {labels : List (ResolvedLabel Nat)}
    {places : List (Nat × MessagePlace Nat)}
    (h : (places.map fun (line, p) => (line, p.marker)) = labels.map closing) :
    ∃ letterings : List (ResolvedLabel Nat × Nat × Nat), letterings.map (·.1) = labels ∧
      (places.flatMap fun (line, p) => p.items.map (line, ·)) =
        letterings.flatMap fun (l, number, column) => l.lettering number column := by
  induction labels generalizing places with
  | nil =>
    rw [List.map_nil, List.map_eq_nil_iff] at h
    exact ⟨[], rfl, by rw [h]; rfl⟩
  | cons l labels ih =>
    obtain ⟨⟨line, place⟩, others, rfl, own, rest⟩ := List.map_eq_cons_iff.mp h
    obtain ⟨letterings, labelled, eq⟩ := ih rest
    refine ⟨(l, place.number, place.column) :: letterings, by rw [List.map_cons, labelled], ?_⟩
    rw [List.flatMap_cons, List.flatMap_cons, eq]
    exact congrArg (· ++ _) (items_closing own)

end ResolvedLabel

/-- The messages of a file are those of its labels. -/
theorem Layout.FileLabels.letterings_layout (f : FileLabels Nat) :
    ∃ letterings : List (ResolvedLabel Nat × Nat × Nat), letterings.map (·.1) = f.labels ∧
      (f.layout.items .message).Perm
        (letterings.flatMap fun (l, number, column) => l.lettering number column) := by
  have split : (f.labels.flatMap fun l => l.opening (f.lineEnd l.start.line) ++ [l.closing]).Perm
      ((f.labels.flatMap fun l => l.opening (f.lineEnd l.start.line)) ++
        f.labels.map ResolvedLabel.closing) := by
    rw [List.map_eq_flatMap]
    exact (List.flatMap_append_perm f.labels _ _).symm
  obtain ⟨places, perm, markers⟩ := exists_perm_of_map_perm (split.symm.trans f.markers_places.symm)
  obtain ⟨silent, spoken, rfl, openings, closings⟩ := List.map_eq_append_iff.mp markers
  obtain ⟨letterings, labelled, eq⟩ := ResolvedLabel.letterings_of_places closings
  refine ⟨letterings, labelled, ?_⟩
  -- Openings have no message, so what is placed for them adds nothing.
  have nothing : (silent.flatMap fun (line, p) => p.items.map (line, ·)) = [] := by
    apply List.flatMap_eq_nil_iff.mpr
    rintro ⟨line, place⟩ hp
    have opened : (line, place.marker) ∈ f.labels.flatMap fun l =>
        l.opening (f.lineEnd l.start.line) := openings ▸ List.mem_map_of_mem hp
    obtain ⟨l, _, own⟩ := List.mem_flatMap.mp opened
    exact congrArg (List.map (line, ·)) (ResolvedLabel.items_opening own)
  rw [f.messages_layout, ← eq]
  have placed := perm.symm.flatMap_right fun (line, p) => p.items.map (line, ·)
  rwa [List.flatMap_append, nothing, List.nil_append] at placed

/-- Every file of a label has one layout. Below its lines stand the underlines of its
labels and no others, and the lines of their messages and no others: those of one
message are below the last line of its label, on rows that follow each other. -/
theorem layoutLabels_complete (sources : Sources) (config : Config)
    (labels : List (ResolvedLabel Nat)) :
    ((layoutLabels sources config labels).map (·.file)).Nodup ∧
      (∀ l ∈ labels, ∃ layout ∈ layoutLabels sources config labels, layout.file = l.file) ∧
      ∀ layout ∈ layoutLabels sources config labels,
        ((layout.items .marker).map fun (line, _, item) => (line, item)).Perm
            ((layout.own labels).flatMap (ResolvedLabel.underlines sources config)) ∧
          ∃ letterings : List (ResolvedLabel Nat × Nat × Nat),
            letterings.map (·.1) = layout.own labels ∧
            (layout.items .message).Perm
              (letterings.flatMap fun (l, number, column) => l.lettering number column) := by
  refine ⟨Layout.nodup_file_layoutLabels sources config labels, ?_, ?_⟩
  · intro l hl
    exact ⟨_, Layout.mem_layoutLabels.mpr ⟨l, hl, rfl⟩, rfl⟩
  · intro layout hl
    obtain ⟨l, _, rfl⟩ := Layout.mem_layoutLabels.mp hl
    let f := FileLabels.select sources config labels l.file
    have own : (f.labels.flatMap fun l =>
          (l.opening (f.lineEnd l.start.line) ++ [l.closing]).map fun (line, m) => (line, m.item)) =
        f.labels.flatMap (ResolvedLabel.underlines sources config) := by
      rw [List.flatMap_def, List.flatMap_def]
      apply congrArg List.flatten
      apply List.map_congr_left
      intro l hl
      exact ResolvedLabel.items_markers f (FileLabels.mem_select.mp hl).2
    exact ⟨f.markers_layout.trans (.of_eq own), f.letterings_layout⟩

end Excerpt
