import Excerpt.Proofs.Layout.Lines

/-! What is written below and beside a line has no line feeds. Markers and pointers are
rows of one glyph, messages are split at their line feeds, and the text of a line is what
stands between two of them. -/
namespace Excerpt

/-- No item is broken over rows. -/
def ItemsUnbroken (items : List (RowItem Nat)) : Prop := ∀ item ∈ items, '\n' ∉ item.text.chars

theorem Text.mem_lines_unbroken {text part : String} (h : part ∈ Text.lines text) :
    '\n' ∉ part.toList := by
  obtain ⟨cs, member, rfl⟩ := List.mem_map.mp h
  rw [String.toList_ofList]
  exact SourceFile.mem_lines_free member

namespace Marker

variable (m : Marker Nat)

theorem item_unbroken : '\n' ∉ m.item.text.chars := by
  intro feed
  rw [item, Strip.chars_repeated] at feed
  have glyph := List.eq_of_mem_replicate feed
  cases style : m.style <;> rw [style] at glyph <;> cases glyph

theorem pointer_unbroken : '\n' ∉ m.pointer.text.chars := by
  intro feed
  rw [pointer, Strip.chars_repeated] at feed
  cases List.eq_of_mem_replicate feed

variable {m}

theorem messageAt_unbroken {text : String} (h : text ∈ m.messageLines) (column : Nat) :
    '\n' ∉ (m.messageAt column text).text.chars := by
  rw [messageAt, Strip.chars_ofString]
  cases message : m.message with
  | none => simp [messageLines, message] at h
  | some lines =>
    rw [messageLines, message] at h
    exact Text.mem_lines_unbroken h

end Marker

theorem annotate_unbroken (row : List (Marker Nat)) :
    ∀ items ∈ annotate row, ItemsUnbroken items := by
  intro items hr item hi
  obtain ⟨m, _, annotates⟩ := annotates_of_mem_annotate hr item hi
  cases annotates with
  | marker => exact m.item_unbroken
  | pointer => exact m.pointer_unbroken
  | behind own => exact Marker.messageAt_unbroken own _
  | below own => exact Marker.messageAt_unbroken own _

/-- Expanding tabs adds spaces only. -/
theorem Columns.mem_expandFrom {tabWidth column : Nat} {cs : List Char} {c : Char}
    (h : c ∈ (expandFrom tabWidth column cs).chars) : c ∈ cs ∨ c = ' ' := by
  induction cs generalizing column with
  | nil => cases h
  | cons first cs ih =>
    rw [expandFrom] at h
    split at h
    · rw [Strip.chars_push, List.mem_append] at h
      rcases h with blank | later
      · exact .inr (List.eq_of_mem_replicate blank)
      · exact (ih later).imp_left (List.mem_cons_of_mem _)
    · rw [Strip.chars_push, List.mem_append] at h
      rcases h with own | later
      · exact .inl (List.eq_of_mem_replicate own ▸ List.mem_cons_self)
      · exact (ih later).imp_left (List.mem_cons_of_mem _)

theorem Store.line_unbroken (store : Store) (id : Number) (line : Nat) :
    '\n' ∉ (store.sources.line id (line : Number)).toList := by
  cases ranged : store.sources.lineRange id (line : Number) with
  | none =>
    rw [Sources.line, ranged]
    exact List.not_mem_nil
  | some range =>
    obtain ⟨_, _, here, _⟩ := Store.hasLine_of_lineRange ranged
    obtain ⟨_, _, _, split⟩ := here.split
    rw [here.line_eq, String.toList_ofList]
    exact split.free

namespace Layout.FileLabels

variable (f : FileLabels Nat) (line : Nat)

theorem rows_unbroken {row : AnnotationRow Nat} (h : row ∈ (f.sourceBlock line).rows) :
    ItemsUnbroken row.items := by
  obtain ⟨_, markers, _, own⟩ := mem_rows.mp h
  exact annotate_unbroken markers row.items own

theorem text_unbroken {store : Store} (own : f.sources = store.sources) :
    '\n' ∉ (f.sourceBlock line).text.chars := by
  intro feed
  rcases Columns.mem_expandFrom feed with inside | blank
  · have text : f.textAt line = store.sources.line f.file (line : Number) := by
      rw [textAt, own]
      rfl
    exact store.line_unbroken f.file line (text ▸ inside)
  · cases blank

end Layout.FileLabels
end Excerpt
