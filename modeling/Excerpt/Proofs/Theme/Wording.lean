import Excerpt.Proofs.Report

/-! What a report says does not depend on its palette. A palette gives the segments of a line
their styles and never looks at their text; lines of the same texts are trimmed alike and have
the same words, and with the words of a report its text and its number of nodes are fixed. -/
namespace Excerpt

theorem Segment.texts_trim {a b : List Segment} (same : a.map Segment.text = b.map Segment.text) :
    (trim a).map Segment.text = (trim b).map Segment.text := by
  induction a generalizing b with
  | nil =>
    cases List.map_eq_nil_iff.mp same.symm
    rfl
  | cons s a ih =>
    cases b with
    | nil => cases same
    | cons t b =>
      obtain ⟨own, rest⟩ := List.cons.inj same
      have later := ih rest
      rw [trim, trim]
      cases left : trim a with
      | nil =>
        rw [left] at later
        rw [List.map_eq_nil_iff.mp later.symm, own]
        dsimp only
        split <;> rfl
      | cons x xs =>
        rw [left] at later
        cases right : trim b with
        | nil =>
          rw [right] at later
          cases later
        | cons y ys =>
          rw [right] at later
          exact congrArg₂ List.cons own later

namespace Document

/-- What the nodes of a document print, node by node. -/
def words (document : Document) : List (List Char) := document.map fun node => printed [node]

theorem words_append (a b : Document) : words (a ++ b) = words a ++ words b := List.map_append

theorem words_flatMap {α : Type} (f : α → Document) (xs : List α) :
    words (xs.flatMap f) = xs.flatMap fun x => words (f x) := List.map_flatMap

theorem flatten_words (document : Document) : (words document).flatten = printed document := by
  induction document with
  | nil => rfl
  | cons node nodes ih =>
    rw [← List.singleton_append, printed_append, ← ih]
    rfl

theorem length_eq_of_words {a b : Document} (h : words a = words b) : a.length = b.length := by
  have same := congrArg List.length h
  rw [words, words, List.length_map, List.length_map] at same
  exact same

theorem words_verbatimLine (segments : List Segment) :
    words (verbatimLine segments) = (segments.map Segment.text).map Strip.chars ++ [['\n']] := by
  rw [verbatimLine, words_append]
  congr 1
  rw [words, List.map_map, List.map_map]
  exact List.map_congr_left fun s _ => printed_node s

theorem words_verbatimLine_congr {a b : List Segment}
    (same : a.map Segment.text = b.map Segment.text) :
    words (verbatimLine a) = words (verbatimLine b) := by
  rw [words_verbatimLine, words_verbatimLine, same]

theorem words_trimmedLine_congr {a b : List Segment}
    (same : a.map Segment.text = b.map Segment.text) :
    words (trimmedLine a) = words (trimmedLine b) :=
  words_verbatimLine_congr (Segment.texts_trim same)

end Document

namespace Palette

open Document (words length_eq_of_words)

variable (p q : Palette)

theorem texts_connectors (slots : Slots) :
    (p.connectors slots).map Segment.text = (q.connectors slots).map Segment.text := by
  rw [connectors, connectors]
  split
  · rfl
  · rw [List.map_append, List.map_append, List.map_map, List.map_map]
    congr 1
    apply List.map_congr_left
    intro slot _
    cases slot <;> rfl

theorem texts_itemsFrom (cursor : Nat) (items : List (RowItem Nat)) :
    (p.itemsFrom cursor items).map Segment.text = (q.itemsFrom cursor items).map Segment.text := by
  induction items generalizing cursor with
  | nil => rfl
  | cons item items ih =>
    rw [itemsFrom_cons, itemsFrom_cons, List.map_append, List.map_append, List.map_cons,
      List.map_cons, ih]
    rfl

theorem words_header (d : Diagnostic) : words (p.header d) = words (q.header d) :=
  Document.words_trimmedLine_congr rfl

theorem words_blankGutter (width : Nat) :
    words (p.blankGutter width) = words (q.blankGutter width) :=
  Document.words_trimmedLine_congr rfl

theorem words_annotationRow (width : Nat) (row : AnnotationRow Nat) :
    words (p.annotationRow width row) = words (q.annotationRow width row) := by
  apply Document.words_trimmedLine_congr
  simp only [List.map_cons, List.map_append, p.texts_connectors q, p.texts_itemsFrom q]
  rfl

theorem texts_sourcePrefix (width line : Nat) (slots : Slots) :
    (p.sourcePrefix width line slots).map Segment.text =
      (q.sourcePrefix width line slots).map Segment.text := by
  rw [sourcePrefix, sourcePrefix, List.map_cons, List.map_cons, p.texts_connectors q]
  rfl

theorem words_sourceRow (width : Nat) (block : SourceBlock Nat) :
    words (p.sourceRow width block) = words (q.sourceRow width block) := by
  have same :
      List.map Segment.text (p.sourcePrefix width block.line block.slots ++ [.plain block.text]) =
        List.map Segment.text
          (q.sourcePrefix width block.line block.slots ++ [.plain block.text]) := by
    rw [List.map_append, List.map_append, p.texts_sourcePrefix q]
  rw [sourceRow_eq, sourceRow_eq]
  split
  · exact Document.words_trimmedLine_congr same
  · exact Document.words_verbatimLine_congr same

theorem words_block (width : Nat) (block : Block Nat) :
    words (p.block width block) = words (q.block width block) := by
  cases block with
  | elided slots =>
    apply Document.words_trimmedLine_congr
    rw [List.map_cons, List.map_cons, p.texts_connectors q]
    rfl
  | source block =>
    rw [Palette.block, Palette.block, Document.words_append, Document.words_append,
      p.words_sourceRow q, Document.words_flatMap, Document.words_flatMap]
    congr 1
    exact List.flatMap_congr fun row _ => p.words_annotationRow q width row

theorem words_file (layout : FileLayout Nat) : words (p.file layout) = words (q.file layout) := by
  simp only [file, Document.words_append, Document.words_flatMap, p.words_blankGutter q,
    p.words_block q]
  congr 2
  exact Document.words_trimmedLine_congr rfl

theorem words_note (width : Nat) (note : String) :
    words (p.note width note) = words (q.note width note) := by
  rw [Palette.note, Palette.note, Document.words_flatMap, Document.words_flatMap]
  apply List.flatMap_congr
  rintro ⟨part, index⟩ _
  apply Document.words_trimmedLine_congr
  split <;> rfl

theorem words_allNotes (width : Nat) (notes : List String) :
    words (notes.flatMap (p.note width)) = words (notes.flatMap (q.note width)) := by
  rw [Document.words_flatMap, Document.words_flatMap]
  exact List.flatMap_congr fun note _ => p.words_note q width note

theorem words_notes (layouts : List (FileLayout Nat)) (notes : List String) :
    words (p.notes layouts notes) = words (q.notes layouts notes) := by
  unfold Palette.notes
  dsimp only
  split
  · rfl
  · rw [Document.words_append, Document.words_append, p.words_allNotes q]
    congr 1
    split
    · rfl
    · exact p.words_blankGutter q _

/-- Two palettes make reports of the same words. -/
theorem words_report (d : Diagnostic) (layouts : List (FileLayout Nat)) :
    words (p.report d layouts) = words (q.report d layouts) := by
  simp only [report, Document.words_append, Document.words_flatMap, p.words_header q,
    p.words_file q, p.words_notes q]

theorem printed_report_eq (d : Diagnostic) (layouts : List (FileLayout Nat)) :
    Document.printed (p.report d layouts) = Document.printed (q.report d layouts) := by
  rw [← Document.flatten_words, ← Document.flatten_words, p.words_report q]

theorem fileFault?_eq (layout : FileLayout Nat) : p.fileFault? layout = q.fileFault? layout := by
  rw [fileFault?, fileFault?, length_eq_of_words (p.words_file q layout)]

/-- Whether a report can be put together does not depend on the palette either. -/
theorem reportFault?_eq (d : Diagnostic) (layouts : List (FileLayout Nat)) :
    p.reportFault? d layouts = q.reportFault? d layouts := by
  have notes : (d.notes.flatMap (p.note (notesWidth layouts))).length =
      (d.notes.flatMap (q.note (notesWidth layouts))).length :=
    length_eq_of_words (p.words_allNotes q _ d.notes)
  have files : (p.fileFault? : FileLayout Nat → _) = q.fileFault? := funext (p.fileFault?_eq q)
  rw [reportFault?, reportFault?, files, notesFault?, notesFault?, notes]

end Palette
end Excerpt
