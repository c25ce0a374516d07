import Excerpt.Proofs.Emission
import Excerpt.Proofs.Rows
import Excerpt.Proofs.Underlines

/-! Plain text has the planned rows. How many there are follows from the layouts and the
notes; the rows with the text of a line are the only ones that may end in spaces. -/
namespace Excerpt

open Layout (FileLabels)

/-- A row that ends with the text of a line which is shown. -/
def ShowsText (layouts : List (FileLayout Nat)) (row : List Char) : Prop :=
  ∃ layout ∈ layouts, ∃ block, .source block ∈ layout.blocks ∧ block.text.chars ≠ [] ∧
    block.text.chars <:+ row

section

variable {α : Type} {P : α → List (List Char) → Prop} {xs : List α} {all : List (List (List Char))}

theorem length_flatten_of_forall₂ (h : List.Forall₂ P xs all) {height : α → Nat}
    (each : ∀ x rows, P x rows → rows.length = height x) :
    all.flatten.length = (xs.map height).sum := by
  induction h with
  | nil => rfl
  | cons own _ ih =>
    rw [List.flatten_cons, List.length_append, ih, each _ _ own, List.map_cons, List.sum_cons]

theorem exists_of_mem_flatten (h : List.Forall₂ P xs all) {row : List Char}
    (member : row ∈ all.flatten) : ∃ x ∈ xs, ∃ rows, P x rows ∧ row ∈ rows := by
  induction h with
  | nil => cases member
  | cons own _ ih =>
    rcases List.mem_append.mp member with here | later
    · exact ⟨_, List.mem_cons_self, _, own, here⟩
    · obtain ⟨x, hx, found⟩ := ih later
      exact ⟨x, List.mem_cons_of_mem _ hx, found⟩

end

theorem Block.PrintedAs.length {width : Nat} {block : Block Nat} {rows : List (List Char)}
    (h : block.PrintedAs width rows) : rows.length = block.height := by
  cases h with
  | elided => rfl
  | source _ _ _ _ count => rw [List.length_cons, count, height, Nat.add_comm]

/-- Only rows with the text of a line may end in spaces. -/
theorem Block.PrintedAs.untrailed {width : Nat} {block : Block Nat} {rows : List (List Char)}
    (h : block.PrintedAs width rows) {row : List Char} (member : row ∈ rows) :
    Untrailed row ∨ ∃ source, block = .source source ∧ source.text.chars ≠ [] ∧
      source.text.chars <:+ row := by
  cases h with
  | elided _ solid => exact .inl (List.mem_singleton.mp member ▸ solid)
  | @source block _ _ _ _ text solid _ each =>
    rcases List.mem_cons.mp member with rfl | below
    · by_cases empty : block.text.chars = []
      · exact .inl (solid empty)
      · exact .inr ⟨block, rfl, empty, text⟩
    · exact .inl (each row below).2

namespace FileLayout

variable {layout : FileLayout Nat} {rows : List (List Char)}

theorem PrintedAs.length (h : layout.PrintedAs rows) : rows.length = layout.height := by
  obtain ⟨blocks, printed, rfl⟩ := h
  have below := length_flatten_of_forall₂ printed fun _ _ own => own.length
  rw [List.length_cons, List.length_cons, below, height]
  omega

theorem PrintedAs.untrailed (h : layout.PrintedAs rows) {row : List Char} (member : row ∈ rows) :
    Untrailed row ∨ ∃ block, .source block ∈ layout.blocks ∧ block.text.chars ≠ [] ∧
      block.text.chars <:+ row := by
  obtain ⟨blocks, printed, rfl⟩ := h
  rcases List.mem_cons.mp member with rfl | member
  · exact .inl (untrailed_trimmed _)
  rcases List.mem_cons.mp member with rfl | member
  · exact .inl (by simp [Untrailed, blankRow, gutterOf])
  obtain ⟨block, hb, _, own, inside⟩ := exists_of_mem_flatten printed member
  rcases own.untrailed inside with solid | ⟨source, rfl, shown⟩
  · exact .inl solid
  · exact .inr ⟨source, hb, shown⟩

end FileLayout

namespace Diagnostic

variable {d : Diagnostic} {layouts : List (FileLayout Nat)} {rows : List (List Char)}

theorem length_notesRows (d : Diagnostic) (layouts : List (FileLayout Nat)) :
    (d.notesRows layouts).length =
      if d.notes = [] then 0
      else (if layouts = [] then 0 else 1) +
        (d.notes.map fun note => (Text.lines note).length).sum := by
  unfold notesRows
  split
  · rfl
  · rw [List.length_append, List.length_flatMap]
    congr 1
    · split <;> rfl
    · simp [noteRows]

theorem untrailed_notesRows {row : List Char} (member : row ∈ d.notesRows layouts) :
    Untrailed row := by
  unfold notesRows at member
  split at member
  · cases member
  · rcases List.mem_append.mp member with blank | note
    · split at blank
      · cases blank
      · rw [List.mem_singleton.mp blank]
        simp [Untrailed, blankRow, gutterOf]
    · obtain ⟨_, _, own⟩ := List.mem_flatMap.mp note
      obtain ⟨_, _, rfl⟩ := List.mem_map.mp own
      exact untrailed_trimmed _

theorem PrintedAs.length (h : d.PrintedAs layouts rows) : rows.length = d.height layouts := by
  obtain ⟨files, printed, rfl⟩ := h
  have above := length_flatten_of_forall₂ printed fun _ _ own => own.length
  rw [List.length_cons, List.length_append, above, length_notesRows, height]
  omega

theorem PrintedAs.untrailed (h : d.PrintedAs layouts rows) {row : List Char}
    (member : row ∈ rows) : Untrailed row ∨ ShowsText layouts row := by
  obtain ⟨files, printed, rfl⟩ := h
  rcases List.mem_cons.mp member with rfl | member
  · exact .inl (untrailed_trimmed _)
  rcases List.mem_append.mp member with file | note
  · obtain ⟨layout, hl, _, own, inside⟩ := exists_of_mem_flatten printed file
    rcases own.untrailed inside with solid | shown
    · exact .inl solid
    · exact .inr ⟨layout, hl, shown⟩
  · exact .inl (untrailed_notesRows note)

end Diagnostic

/-- The layout of a file of a store is printable if the name of the file is. -/
theorem Layout.FileLabels.printable {f : FileLabels Nat} {store : Store}
    (own : f.sources = store.sources) (name : '\n' ∉ f.layout.name.toList) :
    f.layout.Printable where
  name := name
  fits block member := by
    obtain ⟨line, shown, rfl⟩ := f.source_mem_layout.mp member
    exact length_digits_le (f.line_le_last shown)
  text block member := by
    obtain ⟨line, _, rfl⟩ := f.source_mem_layout.mp member
    exact f.text_unbroken line own
  items block member := by
    obtain ⟨line, _, rfl⟩ := f.source_mem_layout.mp member
    exact fun row => f.rows_unbroken line

namespace Diagnostic

variable {store : Store} {options : Options} {config : Config} {d : Diagnostic}
  {labels : List (ResolvedLabel Nat)}

theorem printable_layouts (resolved : d.resolveLabels store.sources config = .ok labels)
    (names : ∀ label ∈ d.labels, ∀ name, store.sources.name label.span.file = some name →
      '\n' ∉ name.toList) :
    ∀ layout ∈ layoutLabels store.sources config labels, layout.Printable := by
  intro layout hl
  obtain ⟨l, member, rfl⟩ := Layout.mem_layoutLabels.mp hl
  apply Layout.FileLabels.printable rfl
  obtain ⟨order, found⟩ := List.mem_iff_getElem?.mp member
  obtain ⟨label, known, own⟩ := (resolveLabels_getElem? resolved order l).mp found
  obtain ⟨_, _, ends, rfl⟩ := Label.resolve_eq_ok_iff.mp own
  obtain ⟨name, named⟩ := Option.ne_none_iff_exists'.mp (Span.resolve_eq_ok_iff.mp ends).1
  show '\n' ∉ ((store.sources.name label.span.file).getD label.span.file.toText).toList
  rw [named]
  exact names label (List.mem_of_getElem? known) name named

theorem format_of_buildable {sources : Sources} (ok : options.settings.resolve = .ok config)
    (resolved : d.resolveLabels sources config = .ok labels)
    (built : d.Buildable sources options config labels) {text : List Char}
    (printed : (d.reportOf sources options config labels).printed = text) :
    (Text.unitsOf text ≤ Text.longest → ∃ strip,
      d.format sources options false = .ok strip ∧ strip.chars = text) ∧
    (¬Text.unitsOf text ≤ Text.longest →
      d.format sources options false = .error (.layout (.text .tooLong))) := by
  have chars : ((d.reportOf sources options config labels).paintedOn .none).chars = text := by
    rw [Document.chars_paintedOn_none, ← printed]
    exact (Document.chars_runs _).symm
  have units : ((d.reportOf sources options config labels).paintedOn .none).units =
      Text.unitsOf text := by
    rw [Strip.units_eq, chars]
  have written : d.format sources options false =
      ((d.reportOf sources options config labels).paintedOn .none).fitting?.mapError
        fun fault => .layout (.text fault) := by
    rw [format, Diagnostic.written, document_of_buildable ok resolved built]
    exact congrArg (Except.mapError _)
      ((d.reportOf sources options config labels).onTerminal_eq .none)
  constructor
  · intro fits
    rw [written, Strip.fitting?_of_fits (units ▸ fits)]
    exact ⟨_, rfl, chars⟩
  · intro long
    rw [written, Strip.fitting?_of_long (units ▸ Nat.lt_of_not_le long)]
    rfl

end Diagnostic

end Excerpt
