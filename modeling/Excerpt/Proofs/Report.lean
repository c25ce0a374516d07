import Excerpt.Proofs.Layout.Annotation
import Excerpt.Proofs.Printed
import Excerpt.Emit

/-! The printed rows of a report. In front of every row below a file stand its
gutter and its connectors; behind them the items of an annotation row start at
their columns, and a source line starts at the first one. -/
namespace Excerpt

/-- A part of a text that starts at a column, counted from 0. -/
def ShownAt (text : List Char) (column : Nat) (part : List Char) : Prop :=
  ∃ before after, text = before ++ part ++ after ∧ before.length = column

namespace ShownAt

variable {text part : List Char} {column : Nat}

theorem append_left (front : List Char) (h : ShownAt text column part) :
    ShownAt (front ++ text) (front.length + column) part := by
  obtain ⟨before, after, rfl, rfl⟩ := h
  exact ⟨front ++ before, after, by simp only [List.append_assoc], List.length_append⟩

theorem append_right (h : ShownAt text column part) (back : List Char) :
    ShownAt (text ++ back) column part := by
  obtain ⟨before, after, rfl, rfl⟩ := h
  exact ⟨before, after ++ back, List.append_assoc _ _ _, rfl⟩

/-- Trimming a text leaves every part that does not end in a space. -/
theorem rdropWhile (h : ShownAt text column part) (solid : part.rdropWhile (· == ' ') = part)
    (shown : part ≠ []) : ShownAt (text.rdropWhile (· == ' ')) column part := by
  obtain ⟨before, after, rfl, rfl⟩ := h
  have kept : (before ++ part).rdropWhile (· == ' ') = before ++ part := by
    rw [rdropWhile_append, solid, if_neg shown]
  rw [rdropWhile_append, kept]
  split
  · exact ⟨before, [], (List.append_nil _).symm, rfl⟩
  · exact ⟨before, _, rfl, rfl⟩

end ShownAt

/-- Segments of one character each. -/
theorem Segment.length_chars_cells {α : Type} {f : α → Segment}
    (cell : ∀ x, (f x).text.chars.length = 1) (xs : List α) :
    (chars (xs.map f)).length = xs.length := by
  induction xs with
  | nil => rfl
  | cons x xs ih =>
    rw [List.map_cons, chars_cons, List.length_append, cell, ih, List.length_cons, Nat.add_comm]

/-- How many columns the connectors of a row take up. -/
def Slots.columns (slots : Slots) : Nat := if slots.length = 0 then 0 else slots.length + 1

/-- A smaller number has no more digits. -/
theorem length_digits_le {a b : Nat} (h : a ≤ b) :
    (Decimal.digits a).length ≤ (Decimal.digits b).length := by
  simp only [Decimal.digits, String.length_ofList]
  have own : b < 10 ^ (Nat.toDigits 10 b).length :=
    (Nat.length_toDigits_le_iff (by decide) Nat.length_toDigits_pos).mp (Nat.le_refl _)
  exact (Nat.length_toDigits_le_iff (by decide) Nat.length_toDigits_pos).mpr
    (Nat.lt_of_le_of_lt h own)

namespace Palette

variable (p : Palette) (width : Nat)

theorem length_connectors (slots : Slots) :
    (Segment.chars (p.connectors slots)).length = Slots.columns slots := by
  cases slots with
  | nil => rfl
  | cons slot slots =>
    rw [connectors, if_neg (by simp), Segment.chars_append, List.length_append,
      Segment.length_chars_cells]
    · simp [Slots.columns, Segment.plain]
    · intro slot
      cases slot <;> simp [Segment.plain, label]

/-- What is in front of the items of a row: the gutter, its space and the connectors. -/
def rowPrefix (slots : Slots) : List Segment :=
  p.gutter (Text.spaces width ++ " |") :: .plain " " :: p.connectors slots

section

variable {α : Type} [Add α] [Sub α] [LT α] [DecidableLT α] [OfNat α 1] [NatCast α] [Coordinate α]

/-- An annotation row before its trailing spaces are trimmed. -/
def annotationSegments (row : AnnotationRow α) : List Segment :=
  p.rowPrefix width row.slots ++ p.itemsFrom 1 row.items

theorem annotationRow_eq (row : AnnotationRow α) :
    p.annotationRow width row = Document.trimmedLine (p.annotationSegments width row) := rfl

theorem printed_annotationRow (row : AnnotationRow α) :
    Document.printed (p.annotationRow width row) =
      (Segment.chars (p.annotationSegments width row)).rdropWhile (· == ' ') ++ ['\n'] := by
  rw [annotationRow_eq, Document.printed_trimmedLine]

end

theorem length_rowPrefix (slots : Slots) :
    (Segment.chars (p.rowPrefix width slots)).length = width + 3 + Slots.columns slots := by
  rw [rowPrefix, Segment.chars_cons, Segment.chars_cons, List.length_append, List.length_append,
    length_connectors]
  simp only [gutter, Segment.plain, Strip.chars_append, Strip.chars_ofString, Text.spaces,
    Text.repeated, String.toList_ofList, List.length_append, List.length_replicate]
  show width + 2 + (1 + Slots.columns slots) = width + 3 + Slots.columns slots
  omega

/-- What is written between a cursor and a column behind it. -/
def gap (cursor column : Nat) : List Segment :=
  if cursor < column then [.plain (.repeated (column - cursor) ' ')] else []

theorem chars_gap (cursor column : Nat) :
    Segment.chars (gap cursor column) = List.replicate (column - cursor) ' ' := by
  unfold gap
  split
  · simp [Segment.plain]
  · rw [show column - cursor = 0 by omega]
    rfl

theorem startFrom_eq (cursor : Nat) (item : RowItem Nat) :
    item.startFrom cursor = max cursor item.column := by
  rw [RowItem.startFrom]
  split <;> omega

theorem itemsFrom_cons (cursor : Nat) (item : RowItem Nat) (items : List (RowItem Nat)) :
    p.itemsFrom cursor (item :: items) =
      gap cursor item.column ++ p.label item.style item.role item.text ::
        p.itemsFrom (max cursor item.column + item.text.length) items := by
  rw [← startFrom_eq]
  rfl

/-- The segment of an item, between what is written before it and after it: the items
left of it, and a gap of spaces. It starts at a column, counted from 0. -/
def Places (segments before : List Segment) (item : RowItem Nat) (column : Nat) : Prop :=
  ∃ gap after, segments = before ++ gap ++ p.label item.style item.role item.text :: after ∧
    (Segment.chars gap).all (· == ' ') ∧ (Segment.chars (before ++ gap)).length = column

theorem Places.shownAt {p : Palette} {segments before : List Segment} {item : RowItem Nat}
    {column : Nat} (h : p.Places segments before item column) :
    ShownAt (Segment.chars segments) column item.text.chars := by
  obtain ⟨gap, after, rfl, _, rfl⟩ := h
  refine ⟨Segment.chars (before ++ gap), Segment.chars after, ?_, rfl⟩
  rw [Segment.chars_append, Segment.chars_cons, List.append_assoc]
  rfl

theorem Places.append_left {p : Palette} {segments before : List Segment} {item : RowItem Nat}
    {column : Nat} (front : List Segment) (h : p.Places segments before item column) :
    p.Places (front ++ segments) (front ++ before) item
      ((Segment.chars front).length + column) := by
  obtain ⟨gap, after, rfl, blank, rfl⟩ := h
  refine ⟨gap, after, by simp only [List.append_assoc], blank, ?_⟩
  rw [List.append_assoc, Segment.chars_append, List.length_append]

/-- Items in order are written at their columns: none is displaced by the one before it. -/
theorem places_itemsFrom {left right : List (RowItem Nat)} {item : RowItem Nat}
    (ordered : (left ++ item :: right).Pairwise RowItem.Precedes) {cursor : Nat}
    (free : ∀ other ∈ left ++ item :: right, cursor ≤ other.column) :
    p.Places (p.itemsFrom cursor (left ++ item :: right)) (p.itemsFrom cursor left) item
      (item.column - cursor) := by
  induction left generalizing cursor with
  | nil =>
    refine ⟨gap cursor item.column, _, p.itemsFrom_cons .., ?_, ?_⟩
    · rw [chars_gap]
      simp
    · rw [itemsFrom, List.nil_append, chars_gap, List.length_replicate]
  | cons first left ih =>
    obtain ⟨next, rest⟩ := List.pairwise_cons.mp ordered
    have start : max cursor first.column = first.column :=
      Nat.max_eq_right (free first (by simp))
    have behind : ∀ other ∈ left ++ item :: right, first.stop ≤ other.column :=
      fun other h => (next other h).stop_le
    have placed := ih rest behind
    have shift := placed.append_left
      (gap cursor first.column ++ [p.label first.style first.role first.text])
    have column : first.column - cursor + (first.text.chars.length + 0) +
        (item.column - first.stop) = item.column - cursor := by
      have := free first (by simp)
      have := (next item (by simp)).stop_le
      rw [← Strip.length_eq]
      unfold RowItem.stop at *
      omega
    rw [Segment.chars_append, chars_gap, List.length_append, List.length_replicate,
      Segment.chars_cons, Segment.chars_nil, List.length_append] at shift
    rw [List.cons_append, itemsFrom_cons, itemsFrom_cons, start, ← column]
    rw [List.append_assoc, List.append_assoc] at shift
    exact shift

/-- Every item of a row is written at its column behind the prefix of the row. -/
theorem places_annotationSegments {slots : Slots} {left right : List (RowItem Nat)}
    {item : RowItem Nat} (h : ItemsApart (left ++ item :: right)) :
    p.Places (p.annotationSegments width ⟨slots, left ++ item :: right⟩)
      (p.annotationSegments width ⟨slots, left⟩) item
      ((Segment.chars (p.rowPrefix width slots)).length + item.column - 1) := by
  have pos := h.column_pos item (by simp)
  rw [Nat.add_sub_assoc pos]
  exact (p.places_itemsFrom h.ordered h.column_pos).append_left _

theorem shownAt_annotationSegments {row : AnnotationRow Nat} (h : ItemsApart row.items)
    {item : RowItem Nat} (hi : item ∈ row.items) :
    ShownAt (Segment.chars (p.annotationSegments width row))
      ((Segment.chars (p.rowPrefix width row.slots)).length + item.column - 1)
      item.text.chars := by
  obtain ⟨slots, items⟩ := row
  obtain ⟨left, right, rfl⟩ := List.append_of_mem hi
  exact (p.places_annotationSegments width h).shownAt

/-! ## Source rows -/

/-- What is in front of the text of a source line: its number and the connectors. -/
def sourcePrefix (line : Nat) (slots : Slots) : List Segment :=
  p.gutter (Text.padStart width (Decimal.digits line) ++ " |") :: .plain " " :: p.connectors slots

theorem length_sourcePrefix {line : Nat} (slots : Slots)
    (fits : (Decimal.digits line).length ≤ width) :
    (Segment.chars (p.sourcePrefix width line slots)).length =
      width + 3 + Slots.columns slots := by
  rw [sourcePrefix, Segment.chars_cons, Segment.chars_cons, List.length_append,
    List.length_append, length_connectors]
  simp only [gutter, Segment.plain, Strip.chars_append, Strip.chars_ofString, Text.padStart,
    Text.spaces, Text.repeated, String.toList_append, String.toList_ofList, List.length_append,
    List.length_replicate, String.length_toList]
  show width - (Decimal.digits line).length + (Decimal.digits line).length + 2 +
    (1 + Slots.columns slots) = width + 3 + Slots.columns slots
  omega

theorem sourceRow_eq (block : SourceBlock Nat) : p.sourceRow width block =
    if block.text.isEmpty then Document.trimmedLine
      (p.sourcePrefix width block.line block.slots ++ [.plain block.text])
    else Document.verbatimLine
      (p.sourcePrefix width block.line block.slots ++ [.plain block.text]) := rfl

/-- Only a line without text is trimmed. -/
theorem printed_sourceRow (block : SourceBlock Nat) :
    Document.printed (p.sourceRow width block) =
      (if block.text.chars = [] then
        (Segment.chars (p.sourcePrefix width block.line block.slots)).rdropWhile (· == ' ')
      else Segment.chars (p.sourcePrefix width block.line block.slots) ++ block.text.chars) ++
        ['\n'] := by
  have own : Segment.chars [.plain block.text] = block.text.chars := by simp [Segment.plain]
  rw [sourceRow_eq]
  by_cases empty : block.text.chars = []
  · rw [if_pos ((Strip.isEmpty_iff _).mpr empty), if_pos empty, Document.printed_trimmedLine,
      Segment.chars_append, own, empty, List.append_nil]
  · rw [if_neg (mt (Strip.isEmpty_iff _).mp empty), if_neg empty, Document.printed_verbatimLine,
      Segment.chars_append, own]

/-- A report prints the rows of each block one after the other. -/
theorem printed_report {d : Diagnostic} {layouts : List (FileLayout Nat)}
    {layout : FileLayout Nat} (hl : layout ∈ layouts) {block : SourceBlock Nat}
    (hb : .source block ∈ layout.blocks) :
    ∃ above below, Document.printed (p.report d layouts) =
      above ++ (Document.printed (p.sourceRow layout.gutterWidth block) ++
        block.rows.flatMap fun row => Document.printed (p.annotationRow layout.gutterWidth row)) ++
      below := by
  obtain ⟨firsts, lasts, rfl⟩ := List.append_of_mem hl
  obtain ⟨upper, lower, eq⟩ := List.append_of_mem hb
  have rows : Document.printed (p.block layout.gutterWidth (.source block)) =
      Document.printed (p.sourceRow layout.gutterWidth block) ++
        block.rows.flatMap fun row =>
          Document.printed (p.annotationRow layout.gutterWidth row) := by
    rw [Palette.block, Document.printed_append, Document.printed_flatMap]
  have split : ∃ above below, p.report d (firsts ++ layout :: lasts) =
      above ++ p.block layout.gutterWidth (.source block) ++ below := by
    rw [report, List.flatMap_append, List.flatMap_cons, file, eq, List.flatMap_append,
      List.flatMap_cons]
    exact ⟨p.header d ++ (firsts.flatMap p.file ++ (_ ++ (_ ++ _))), _,
      by simp only [List.append_assoc]; rfl⟩
  obtain ⟨above, below, split⟩ := split
  rw [split, Document.printed_append, Document.printed_append, rows]
  exact ⟨_, _, rfl⟩

end Palette

/-- A diagnostic that is written without colors is what its report prints. -/
theorem Diagnostic.chars_format {sources : Sources} {options : Options} {config : Config}
    {d : Diagnostic} {labels : List (ResolvedLabel Nat)} {text : Strip}
    (valid : options.settings.resolve = .ok config)
    (resolved : d.resolveLabels sources config = .ok labels)
    (written : d.format sources options false = .ok text) :
    text.chars = Document.printed
      (Palette.report ⟨options.theme.resolve, d.severity⟩ d
        (layoutLabels sources config labels)) := by
  unfold format Diagnostic.written document layouts layoutLabels? at written
  rw [valid] at written
  dsimp only at written
  rw [resolved] at written
  dsimp only at written
  cases built : Excerpt.layoutFault? sources config labels with
  | some fault =>
    rw [built] at written
    cases written
  | none =>
    rw [built] at written
    dsimp only at written
    cases short : (Palette.mk options.theme.resolve d.severity).reportFault? d
        (layoutLabels sources config labels) with
    | some fault =>
      rw [short] at written
      cases written
    | none =>
      rw [short] at written
      dsimp only at written
      cases plain : Document.plain (Palette.report ⟨options.theme.resolve, d.severity⟩ d
          (layoutLabels sources config labels)) with
      | error fault => simp [plain, Except.mapError] at written
      | ok printed =>
        simp only [plain, Except.mapError, Bool.false_eq_true, if_false, Except.ok.injEq] at written
        rw [← written, Document.chars_plain plain]

end Excerpt
