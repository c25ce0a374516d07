import Excerpt.Proofs.Layout.Feeds
import Excerpt.Proofs.Report

/-! Reports row by row. A report prints its header, the rows of its files and the rows of
its notes, and nothing that is written in them breaks a row. -/
namespace Excerpt

/-- A row without the spaces it ends in. -/
def trimmed (row : List Char) : List Char := row.rdropWhile (· == ' ')

/-- A row that does not end in a space. -/
def Untrailed (row : List Char) : Prop := row.getLast? ≠ some ' '

theorem untrailed_trimmed (row : List Char) : Untrailed (trimmed row) := by
  intro ends
  obtain ⟨rest, eq⟩ := List.getLast?_eq_some_iff.mp ends
  have kept : trimmed row ≠ [] := by rw [eq]; simp
  have solid := List.rdropWhile_last_not (· == ' ') row kept
  have last : (trimmed row).getLast kept = ' ' := by
    rw [List.getLast_eq_iff_getLast?_eq_some, ends]
  exact solid (beq_iff_eq.mpr last)

theorem trimmed_unbroken {row : List Char} (h : '\n' ∉ row) : '\n' ∉ trimmed row := fun feed =>
  h ((List.rdropWhile_prefix _ row).sublist.subset feed)

/-- What ends in something else than a space stays in front of a row. -/
theorem prefix_trimmed (front rest : List Char) {c : Char} (solid : c ≠ ' ') :
    front ++ [c] <+: trimmed (front ++ [c] ++ rest) := by
  have kept : (front ++ [c]).rdropWhile (· == ' ') = front ++ [c] :=
    List.rdropWhile_concat_neg _ _ _ (by simpa using solid)
  rw [trimmed, rdropWhile_append, kept]
  split
  · exact List.prefix_rfl
  · exact List.prefix_append _ _

/-- The gutter of a row: some text, and what divides it from the rest. -/
def gutterOf (text : String) (mark : Char) : List Char := text.toList ++ [' '] ++ [mark]

/-- A row with nothing but a gutter. -/
def blankRow (width : Nat) : List Char := gutterOf (Text.spaces width) '|'

/-- The rows of a note, one for each of its lines. -/
def noteRows (width : Nat) (note : String) : List (List Char) :=
  (Text.lines note).zipIdx.map fun (part, index) =>
    trimmed ((Text.spaces width ++ (if index = 0 then " = " else "   ") ++ part).toList)

/-- The rows that a block is printed as: those of a source line have its number, right
behind the spaces that fill the gutter, and end with the whole text of the line. -/
inductive Block.PrintedAs (width : Nat) : Block Nat → List (List Char) → Prop
  | elided {slots : Slots} {row : List Char}
      (gutter : gutterOf (Text.spaces width) ':' <+: row) (solid : Untrailed row) :
      PrintedAs width (.elided slots) [row]
  | source {block : SourceBlock Nat} {row : List Char} {below : List (List Char)}
      (fits : (Decimal.digits block.line).length ≤ width)
      (gutter : gutterOf (Text.padStart width (Decimal.digits block.line)) '|' <+: row)
      (text : block.text.chars <:+ row) (solid : block.text.chars = [] → Untrailed row)
      (count : below.length = block.rows.length)
      (each : ∀ row ∈ below, gutterOf (Text.spaces width) '|' <+: row ∧ Untrailed row) :
      PrintedAs width (.source block) (row :: below)

/-- How many rows a block has. -/
def Block.height : Block Nat → Nat
  | .elided _ => 1
  | .source block => 1 + block.rows.length

namespace FileLayout

/-- The row that tells where a file is. -/
def placeRow (layout : FileLayout Nat) : List Char :=
  trimmed (Text.spaces layout.gutterWidth ++ "--> " ++ layout.name ++ ":" ++
    Decimal.digits layout.location.line ++ ":" ++ Decimal.digits layout.location.column).toList

/-- The rows that a file is printed as. -/
def PrintedAs (layout : FileLayout Nat) (rows : List (List Char)) : Prop :=
  ∃ blocks, List.Forall₂ (Block.PrintedAs layout.gutterWidth) layout.blocks blocks ∧
    rows = layout.placeRow :: blankRow layout.gutterWidth :: blocks.flatten

def height (layout : FileLayout Nat) : Nat := 2 + (layout.blocks.map Block.height).sum

/-- A layout with nothing in it that breaks a row, and a gutter for all of its lines. -/
structure Printable (layout : FileLayout Nat) : Prop where
  name : '\n' ∉ layout.name.toList
  fits : ∀ block, .source block ∈ layout.blocks →
    (Decimal.digits block.line).length ≤ layout.gutterWidth
  text : ∀ block, .source block ∈ layout.blocks → '\n' ∉ block.text.chars
  items : ∀ block, .source block ∈ layout.blocks → ∀ row ∈ block.rows, ItemsUnbroken row.items

end FileLayout

namespace Diagnostic

def headerRow (d : Diagnostic) : List Char :=
  trimmed (d.severity.name ++ d.code.elim "" (fun code => "[" ++ code ++ "]") ++ ": " ++
    d.message).toList

/-- The rows of all notes, behind a blank row if there are rows of files above them. -/
def notesRows (d : Diagnostic) (layouts : List (FileLayout Nat)) : List (List Char) :=
  let width := Palette.notesWidth layouts
  if d.notes = [] then []
  else (if layouts = [] then [] else [blankRow width]) ++ d.notes.flatMap (noteRows width)

/-- The rows that a report is printed as. -/
def PrintedAs (d : Diagnostic) (layouts : List (FileLayout Nat)) (rows : List (List Char)) : Prop :=
  ∃ files, List.Forall₂ FileLayout.PrintedAs layouts files ∧
    rows = d.headerRow :: (files.flatten ++ d.notesRows layouts)

/-- How many rows a report has. -/
def height (d : Diagnostic) (layouts : List (FileLayout Nat)) : Nat :=
  1 + (layouts.map FileLayout.height).sum +
    if d.notes = [] then 0
    else (if layouts = [] then 0 else 1) + (d.notes.map fun note => (Text.lines note).length).sum

end Diagnostic

namespace Document

/-- A document that prints some rows, each of which is ended by the only line feed in it. -/
structure PrintsRows (document : Document) (rows : List (List Char)) : Prop where
  text : document.printed = rows.flatMap fun row => row ++ ['\n']
  unbroken : ∀ row ∈ rows, '\n' ∉ row

theorem printsRows_nil : PrintsRows [] [] := ⟨rfl, by simp⟩

theorem PrintsRows.append {a b : Document} {above below : List (List Char)}
    (ha : a.PrintsRows above) (hb : b.PrintsRows below) : (a ++ b).PrintsRows (above ++ below) where
  text := by rw [printed_append, ha.text, hb.text, List.flatMap_append]
  unbroken row h := (List.mem_append.mp h).elim (ha.unbroken row) (hb.unbroken row)

/-- A trimmed line is one row. -/
theorem printsRows_trimmedLine {segments : List Segment} {row : List Char}
    (own : Segment.chars segments = row) (unbroken : '\n' ∉ row) :
    (trimmedLine segments).PrintsRows [trimmed row] where
  text := by rw [printed_trimmedLine, own, List.flatMap_singleton, trimmed]
  unbroken := List.forall_mem_singleton.mpr (trimmed_unbroken unbroken)

theorem printsRows_flatMap {α : Type} {f : α → Document} {g : α → List (List Char)} {xs : List α}
    (h : ∀ x ∈ xs, (f x).PrintsRows (g x)) : PrintsRows (xs.flatMap f) (xs.flatMap g) := by
  induction xs with
  | nil => exact printsRows_nil
  | cons x xs ih =>
    obtain ⟨own, others⟩ := List.forall_mem_cons.mp h
    exact own.append (ih others)

theorem exists_printsRows_flatMap {α : Type} {P : α → List (List Char) → Prop} {f : α → Document}
    {xs : List α} (h : ∀ x ∈ xs, ∃ rows, P x rows ∧ (f x).PrintsRows rows) :
    ∃ all, List.Forall₂ P xs all ∧ PrintsRows (xs.flatMap f) all.flatten := by
  induction xs with
  | nil => exact ⟨[], .nil, printsRows_nil⟩
  | cons x xs ih =>
    obtain ⟨⟨rows, own, prints⟩, others⟩ := List.forall_mem_cons.mp h
    obtain ⟨all, rest, behind⟩ := ih others
    exact ⟨rows :: all, .cons own rest, prints.append behind⟩

end Document

namespace Palette

variable (p : Palette)

theorem chars_connectors_unbroken (slots : Slots) : '\n' ∉ Segment.chars (p.connectors slots) := by
  intro feed
  obtain ⟨s, member, own⟩ := List.mem_flatMap.mp feed
  unfold connectors at member
  split at member
  · cases member
  · rcases List.mem_append.mp member with cell | blank
    · obtain ⟨slot, _, rfl⟩ := List.mem_map.mp cell
      cases slot with
      | none => simp [Segment.plain] at own
      | some style => simp [label, pointerGlyph] at own
    · rw [List.mem_singleton.mp blank] at own
      simp [Segment.plain] at own

theorem itemsFrom_unbroken {items : List (RowItem Nat)} (h : ItemsUnbroken items) (cursor : Nat) :
    '\n' ∉ Segment.chars (p.itemsFrom cursor items) := by
  induction items generalizing cursor with
  | nil => exact List.not_mem_nil
  | cons item items ih =>
    obtain ⟨own, others⟩ := List.forall_mem_cons.mp h
    rw [itemsFrom_cons, Segment.chars_append, chars_gap, Segment.chars_cons]
    intro feed
    rcases List.mem_append.mp feed with gap | feed
    · cases List.eq_of_mem_replicate gap
    · rcases List.mem_append.mp feed with here | later
      · exact own here
      · exact ih others _ later

theorem spaces_unbroken (width : Nat) : '\n' ∉ (Text.spaces width).toList := by
  intro feed
  rw [Text.spaces, Text.repeated, String.toList_ofList] at feed
  cases List.eq_of_mem_replicate feed

theorem digits_unbroken (n : Nat) : '\n' ∉ (Decimal.digits n).toList := by
  intro feed
  rw [Decimal.digits, String.toList_ofList] at feed
  have digit := Nat.isDigit_of_mem_toDigits (by decide) (by decide) feed
  cases digit

theorem gutterOf_unbroken {text : String} {mark : Char} (own : '\n' ∉ text.toList)
    (other : mark ≠ '\n') : '\n' ∉ gutterOf text mark := by
  intro feed
  rw [gutterOf, List.append_assoc, List.mem_append] at feed
  apply feed.elim own
  simp [other.symm]

theorem printsRows_header {d : Diagnostic} (message : '\n' ∉ d.message.toList)
    (code : ∀ code, d.code = some code → '\n' ∉ code.toList) :
    (p.header d).PrintsRows [d.headerRow] := by
  apply Document.printsRows_trimmedLine
  · simp [Segment.chars, heading]
  · have severity : '\n' ∉ d.severity.name.toList := by cases d.severity <;> decide
    have bracketed : '\n' ∉ (d.code.elim "" fun code => "[" ++ code ++ "]").toList := by
      cases own : d.code with
      | none => exact List.not_mem_nil
      | some text => simp [code text own]
    simp [severity, bracketed, message]

theorem chars_blankGutter (width : Nat) :
    Segment.chars [p.gutter (Text.spaces width ++ " |")] = blankRow width := by
  simp [gutter, blankRow, gutterOf]

theorem printsRows_blankGutter (width : Nat) :
    (p.blankGutter width).PrintsRows [blankRow width] := by
  have solid : trimmed (blankRow width) = blankRow width := by
    exact List.rdropWhile_concat_neg _ _ _ (by decide)
  have prints := Document.printsRows_trimmedLine (p.chars_blankGutter width)
    (gutterOf_unbroken (spaces_unbroken width) (by decide))
  rwa [solid] at prints

theorem printsRows_note (width : Nat) (note : String) :
    (p.note width note).PrintsRows (noteRows width note) := by
  rw [noteRows, List.map_eq_flatMap]
  apply Document.printsRows_flatMap
  rintro ⟨part, index⟩ member
  have unbroken := Text.mem_lines_unbroken (List.fst_mem_of_mem_zipIdx member)
  apply Document.printsRows_trimmedLine
  · split
    · simp [gutter, Segment.plain]
    · simp [Segment.plain]
  · split
    · simp [spaces_unbroken, unbroken]
    · simp [spaces_unbroken, unbroken]

theorem printsRows_notes (d : Diagnostic) (layouts : List (FileLayout Nat)) :
    (p.notes layouts d.notes).PrintsRows (d.notesRows layouts) := by
  unfold notes Diagnostic.notesRows
  by_cases none : d.notes = []
  · simp [none, Document.printsRows_nil]
  · rw [if_neg (by simpa using none), if_neg none]
    apply Document.PrintsRows.append
    · by_cases alone : layouts = []
      · simp [alone, Document.printsRows_nil]
      · rw [if_neg (by simpa using alone), if_neg alone]
        exact p.printsRows_blankGutter _
    · exact Document.printsRows_flatMap fun note _ => p.printsRows_note _ note

/-! ## Files -/

/-- A gutter, a space and connectors. -/
theorem chars_gutter_connectors {text : Strip} (front : String) (mark : Char) (slots : Slots)
    (own : text.chars = gutterOf front mark) :
    Segment.chars (p.gutter text :: .plain " " :: p.connectors slots) =
      gutterOf front mark ++ (' ' :: Segment.chars (p.connectors slots)) := by
  simp [gutter, Segment.plain, own]

theorem gutter_connectors_unbroken {front : String} {mark : Char} (own : '\n' ∉ front.toList)
    (other : mark ≠ '\n') (slots : Slots) :
    '\n' ∉ gutterOf front mark ++ (' ' :: Segment.chars (p.connectors slots)) := by
  simp [gutterOf_unbroken own other, p.chars_connectors_unbroken slots]

theorem printsRows_elided (width : Nat) (slots : Slots) :
    ∃ rows, Block.PrintedAs width (.elided slots) rows ∧
      (p.block width (.elided slots)).PrintsRows rows := by
  have row := p.chars_gutter_connectors (Text.spaces width) ':' slots
    (by simp [gutterOf] : (Text.spaces width ++ " :" : Strip).chars = _)
  have unbroken := p.gutter_connectors_unbroken (spaces_unbroken width)
    (by decide : ':' ≠ '\n') slots
  exact ⟨_, .elided (prefix_trimmed _ _ (by decide)) (untrailed_trimmed _),
    Document.printsRows_trimmedLine row unbroken⟩

/-- What an annotation row is printed as. -/
def annotationChars (width : Nat) (row : AnnotationRow Nat) : List Char :=
  gutterOf (Text.spaces width) '|' ++
    (' ' :: Segment.chars (p.connectors row.slots ++ p.itemsFrom 1 row.items))

theorem printsRows_annotationRow (width : Nat) {row : AnnotationRow Nat}
    (items : ItemsUnbroken row.items) :
    (p.annotationRow width row).PrintsRows [trimmed (p.annotationChars width row)] := by
  apply Document.printsRows_trimmedLine
  · simp [annotationChars, gutter, gutterOf, Segment.plain]
  · simp [annotationChars, gutterOf_unbroken (spaces_unbroken width),
      p.chars_connectors_unbroken, p.itemsFrom_unbroken items]

/-- What is printed in front of the text of a source line. -/
def sourceChars (width : Nat) (block : SourceBlock Nat) : List Char :=
  gutterOf (Text.padStart width (Decimal.digits block.line)) '|' ++
    (' ' :: Segment.chars (p.connectors block.slots))

theorem printsRows_sourceRow (width : Nat) {block : SourceBlock Nat}
    (text : '\n' ∉ block.text.chars) :
    (p.sourceRow width block).PrintsRows
      [if block.text.chars = [] then trimmed (p.sourceChars width block)
        else p.sourceChars width block ++ block.text.chars] := by
  have front : Segment.chars (p.sourcePrefix width block.line block.slots) =
      p.sourceChars width block :=
    p.chars_gutter_connectors _ '|' block.slots (by simp [gutterOf])
  have number : '\n' ∉ (Text.padStart width (Decimal.digits block.line)).toList := by
    rw [Text.padStart, String.toList_append, List.mem_append, not_or]
    exact ⟨spaces_unbroken _, digits_unbroken _⟩
  have unbroken : '\n' ∉ p.sourceChars width block :=
    p.gutter_connectors_unbroken number (by decide) block.slots
  constructor
  · rw [p.printed_sourceRow, front, List.flatMap_singleton]
    rfl
  · intro row own
    rw [List.mem_singleton.mp own]
    split
    · exact trimmed_unbroken unbroken
    · rw [List.mem_append, not_or]
      exact ⟨unbroken, text⟩

theorem printsRows_source (width : Nat) {block : SourceBlock Nat}
    (fits : (Decimal.digits block.line).length ≤ width) (text : '\n' ∉ block.text.chars)
    (items : ∀ row ∈ block.rows, ItemsUnbroken row.items) :
    ∃ rows, Block.PrintedAs width (.source block) rows ∧
      (p.block width (.source block)).PrintsRows rows := by
  have below : Document.PrintsRows (block.rows.flatMap (p.annotationRow width))
      (block.rows.map fun row => trimmed (p.annotationChars width row)) := by
    rw [List.map_eq_flatMap]
    apply Document.printsRows_flatMap
    intro row member
    exact p.printsRows_annotationRow width (items row member)
  refine ⟨_, ?_, (p.printsRows_sourceRow width text).append below⟩
  constructor
  · exact fits
  · split
    · exact prefix_trimmed _ _ (by decide)
    · rw [sourceChars, List.append_assoc]
      exact List.prefix_append _ _
  · split
    · rename_i empty
      exact empty ▸ List.nil_suffix
    · exact List.suffix_append _ _
  · intro empty
    rw [if_pos empty]
    exact untrailed_trimmed _
  · exact List.length_map _
  · intro row member
    obtain ⟨_, _, rfl⟩ := List.mem_map.mp member
    exact ⟨prefix_trimmed _ _ (by decide), untrailed_trimmed _⟩

theorem printsRows_place {layout : FileLayout Nat} (name : '\n' ∉ layout.name.toList) :
    (Document.trimmedLine [.plain (Text.spaces layout.gutterWidth), p.gutter "-->", .plain " ",
      ⟨p.theme.location.bind Style.effective?, Strip.ofString (layout.name ++ ":" ++
        Decimal.digits layout.location.line ++ ":" ++
        Decimal.digits layout.location.column)⟩]).PrintsRows [layout.placeRow] := by
  apply Document.printsRows_trimmedLine
  · simp [Segment.plain, gutter]
  · simp [spaces_unbroken, digits_unbroken, name]

theorem printsRows_file {layout : FileLayout Nat} (printable : layout.Printable) :
    ∃ rows, layout.PrintedAs rows ∧ (p.file layout).PrintsRows rows := by
  have blocks : ∀ block ∈ layout.blocks, ∃ rows, Block.PrintedAs layout.gutterWidth block rows ∧
      (p.block layout.gutterWidth block).PrintsRows rows := by
    intro block member
    cases block with
    | elided slots => exact p.printsRows_elided _ slots
    | source block =>
      exact p.printsRows_source _ (printable.fits block member) (printable.text block member)
        (printable.items block member)
  obtain ⟨all, printed, prints⟩ := Document.exists_printsRows_flatMap blocks
  refine ⟨_, ⟨all, printed, rfl⟩, ?_⟩
  exact ((p.printsRows_place printable.name).append (p.printsRows_blankGutter _)).append prints

theorem printsRows_report {d : Diagnostic} (message : '\n' ∉ d.message.toList)
    (code : ∀ code, d.code = some code → '\n' ∉ code.toList) {layouts : List (FileLayout Nat)}
    (printable : ∀ layout ∈ layouts, layout.Printable) :
    ∃ rows, d.PrintedAs layouts rows ∧ (p.report d layouts).PrintsRows rows := by
  obtain ⟨files, printed, prints⟩ := Document.exists_printsRows_flatMap fun layout member =>
    p.printsRows_file (printable layout member)
  refine ⟨_, ⟨files, printed, rfl⟩, ?_⟩
  have whole := ((p.printsRows_header message code).append prints).append
    (p.printsRows_notes d layouts)
  rwa [List.singleton_append, List.cons_append] at whole

end Palette

end Excerpt
