import Excerpt.Proofs.Layout.Columns
import Excerpt.Proofs.Layout.Lines
import Excerpt.Proofs.Report
import Mathlib.Data.List.Nodup

/-! Underlines stand exactly under the text they mark. The text of a line is printed
behind the gutter and the connectors; so are the rows below it, whose glyphs are at
the columns of the marked text. -/
namespace Excerpt

open Layout (FileLabels)

/-- The column, counted from 0, at which a report shows the text of a file. -/
def FileLayout.textColumn (layout : FileLayout Nat) : Nat :=
  layout.gutterWidth + 3 +
    if layout.connectorWidth = 0 then 0 else layout.connectorWidth + 1

/-- A source line as it is printed, with some markers on the annotation rows below it:
each is on the row with its number, and there are no others. -/
structure Palette.ShowsLine (p : Palette) (layout : FileLayout Nat) (block : SourceBlock Nat)
    (marks : List (Nat × Marker Nat)) : Prop where
  source_row : ∃ front, front.length = layout.textColumn ∧
    Document.printed (p.sourceRow layout.gutterWidth block) =
      (if block.text.chars = [] then front.rdropWhile (· == ' ') else front ++ block.text.chars) ++
        ['\n']
  markers : block.items .marker = marks.map fun (number, m) => (number, m.item)
  underlined : ∀ mark ∈ marks, ∃ row, block.rows[mark.1]? = some row ∧
    mark.2.item ∈ row.items ∧
    ∃ printed, Document.printed (p.annotationRow layout.gutterWidth row) = printed ++ ['\n'] ∧
      ShownAt printed (layout.textColumn + mark.2.start - 1) mark.2.item.text.chars
  apart : ∀ a ∈ marks, ∀ b ∈ marks, a.1 = b.1 → a.2.order ≠ b.2.order →
    a.2.stop ≤ b.2.start ∨ b.2.stop ≤ a.2.start

theorem Marker.solid_item {m : Marker Nat} (h : m.Proper) :
    m.item.text.chars ≠ [] ∧
      m.item.text.chars.rdropWhile (· == ' ') = m.item.text.chars := by
  have wide := h.start_lt_stop
  obtain ⟨count, eq⟩ : ∃ count, m.stop - m.start = count + 1 := ⟨m.stop - m.start - 1, by omega⟩
  have glyph : (m.style.glyph == ' ') = false := by cases m.style <;> rfl
  have chars : m.item.text.chars = List.replicate count m.style.glyph ++ [m.style.glyph] := by
    rw [Marker.item, Strip.chars_repeated, Coordinate.toCount_nat, eq, List.replicate_succ']
  rw [chars]
  refine ⟨by simp, ?_⟩
  rw [List.rdropWhile_concat_neg]
  simp [glyph]

/-- A line without tabs shows each part of its text at the width of the text before it. -/
theorem shownAt_expand {tabWidth : Nat} (pos : 0 < tabWidth) (front part after : String) :
    ShownAt (Columns.expand tabWidth (front ++ part ++ after)).chars (Columns.width tabWidth front)
      (Columns.expandFrom tabWidth (Columns.width tabWidth front) part.toList).chars := by
  rw [Columns.chars_expand_append, Columns.chars_expand_append]
  exact ⟨_, _, rfl, Columns.length_expand pos front⟩

namespace Layout.FileLabels

variable (f : FileLabels Nat) {line : Nat}

theorem line_le_last (shown : line ∈ f.shown) : line ≤ f.shown.getLast?.getD 1 := by
  cases last : f.shown.getLast? with
  | none =>
    rw [List.getLast?_eq_none_iff.mp last] at shown
    cases shown
  | some stop => exact le_of_getLast? f.shown_sorted last line shown

theorem columns_slots : f.layout.gutterWidth + 3 + Slots.columns (f.sourceBlock line).slots =
    f.layout.textColumn := by
  have length : (f.sourceBlock line).slots.length = f.layout.connectorWidth :=
    Connectors.length_slots ..
  rw [Slots.columns, length, FileLayout.textColumn]

theorem showsLine (proper : ∀ l ∈ f.labels, l.Proper) (shown : line ∈ f.shown) (p : Palette) :
    p.ShowsLine f.layout (f.sourceBlock line) (f.marksOf line) where
  source_row := by
    have fits : (Decimal.digits line).length ≤ f.layout.gutterWidth :=
      length_digits_le (f.line_le_last shown)
    refine ⟨_, (p.length_sourcePrefix _ (f.sourceBlock line).slots fits).trans f.columns_slots, ?_⟩
    exact p.printed_sourceRow _ _
  markers := f.items_marksOf line
  underlined := by
    intro mark hm
    obtain ⟨row, here, member⟩ := f.row_of_mem_marksOf line hm
    have below := List.mem_of_getElem? here
    have own : mark.2.Proper := by
      have marked : mark.2 ∈ f.markersOf line :=
        (f.marksOf_perm line).mem_iff.mp (List.mem_map_of_mem hm)
      obtain ⟨l, hl, known⟩ := List.mem_flatMap.mp marked
      exact ResolvedLabel.proper_of_mem_markers (proper l hl) known
    obtain ⟨some_glyph, solid⟩ := Marker.solid_item own
    have place := p.shownAt_annotationSegments f.layout.gutterWidth
      (f.items_apart line proper below) member
    rw [p.length_rowPrefix, (mem_rows.mp below).1, f.columns_slots] at place
    exact ⟨row, here, member, _, p.printed_annotationRow _ row, place.rdropWhile solid some_glyph⟩
  apart := by
    intro a ha b hb row differ
    exact f.marksOf_apart line proper ha hb (fun same => differ (congrArg (·.2.order) same)) row

/-- Where the source row shows a part of its text. -/
theorem shownAt_part {text front part : List Char} (own : f.textAt line = String.ofList text)
    (hf : front ++ part <+: text) (filled : part ≠ []) {p : Palette}
    {marks : List (Nat × Marker Nat)} (shows : p.ShowsLine f.layout (f.sourceBlock line) marks) :
    let left := Columns.width f.tabWidth (String.ofList front)
    let right := Columns.width f.tabWidth (String.ofList front ++ String.ofList part)
    let expanded := (Columns.expandFrom f.tabWidth left (String.ofList part).toList).chars
    ShownAt (Document.printed (p.sourceRow f.layout.gutterWidth (f.sourceBlock line)))
        (f.layout.textColumn + left) expanded ∧
      left + expanded.length = right ∧ left < right := by
  intro left right expanded
  obtain ⟨after, rfl⟩ := hf
  have length : left + expanded.length = right :=
    Columns.width_add_length f.config.tabWidth_pos _ _
  have grows : left < right := by
    apply Columns.width_lt_append f.config.tabWidth_pos
    rwa [String.toList_ofList]
  have whole : (f.sourceBlock line).text = Columns.expand f.tabWidth
      (String.ofList front ++ String.ofList part ++ String.ofList after) := by
    show Columns.expand f.tabWidth (f.textAt line) = _
    rw [own, String.ofList_append, String.ofList_append]
  have shown : ShownAt (f.sourceBlock line).text.chars left expanded := by
    rw [whole]
    exact shownAt_expand f.config.tabWidth_pos _ _ _
  have some_text : (f.sourceBlock line).text.chars ≠ [] := by
    obtain ⟨_, _, eq, _⟩ := shown
    intro empty
    rw [empty, eq_comm, List.append_eq_nil_iff, List.append_eq_nil_iff] at eq
    rw [eq.1.2, List.length_nil] at length
    omega
  obtain ⟨gutter, column, row⟩ := shows.source_row
  rw [if_neg some_text] at row
  have behind := (shown.append_left gutter).append_right ['\n']
  rw [column] at behind
  rw [row]
  exact ⟨behind, length, grows⟩

/-- A label on one line has one marker, and it is on that line. -/
theorem marks_of_label (distinct : (f.labels.map (·.order)).Nodup) {l : ResolvedLabel Nat}
    (hl : l ∈ f.labels) (single : l.isMultiline = false) (here : l.start.line = line) :
    ∃ number, (f.marksOf line).filter (fun mark => mark.2.order == l.order) =
      [(number, l.marker l.start.column l.stop.column l.message)] := by
  have each : ∀ other ∈ f.labels,
      (other.markers line (f.lineEnd line)).filter (fun m => m.order == l.order) =
        if l = other then [other.marker other.start.column other.stop.column other.message]
        else [] := by
    intro other ho
    by_cases same : l = other
    · subst same
      rw [ResolvedLabel.markers_of_single single, if_pos here, if_pos rfl]
      exact List.filter_cons_of_pos (beq_self_eq_true l.order)
    · rw [if_neg same]
      apply List.filter_eq_nil_iff.mpr
      intro m hm eq
      apply same
      obtain ⟨_, _, _, _, _, rfl⟩ := ResolvedLabel.marker_of_mem_markers hm
      exact List.inj_on_of_nodup_map distinct hl ho (eq_of_beq eq).symm
  have own : (f.markersOf line).filter (fun m => m.order == l.order) =
      [l.marker l.start.column l.stop.column l.message] := by
    rw [markersOf, List.filter_flatMap, List.flatMap_def, List.map_congr_left each,
      ← List.flatMap_def]
    exact flatMap_ite_of_mem (List.Nodup.of_map _ distinct) hl fun other =>
      other.marker other.start.column other.stop.column other.message
  have filtered := (f.marksOf_perm line).filter fun m => m.order == l.order
  rw [own, List.filter_map, List.perm_singleton, List.map_eq_singleton_iff] at filtered
  obtain ⟨⟨number, m⟩, eq, rfl⟩ := filtered
  exact ⟨number, eq⟩

/-- The glyphs of a label on one line are under its columns. -/
theorem underline_of_label (distinct : (f.labels.map (·.order)).Nodup) {l : ResolvedLabel Nat}
    (hl : l ∈ f.labels) {left right : Nat} (start : l.start = ⟨line, 1 + left⟩)
    (stop : l.stop = ⟨line, 1 + right⟩) (wide : left < right) {p : Palette}
    (shows : p.ShowsLine f.layout (f.sourceBlock line) (f.marksOf line)) :
    ∃ number m, (f.marksOf line).filter (fun mark => mark.2.order == l.order) = [(number, m)] ∧
      m.start = 1 + left ∧ m.stop = 1 + right ∧ m.style = l.style ∧
      ∃ row, (f.sourceBlock line).rows[number]? = some row ∧ m.item ∈ row.items ∧
      ∃ printed, Document.printed (p.annotationRow f.layout.gutterWidth row) = printed ++ ['\n'] ∧
        ShownAt printed (f.layout.textColumn + left)
          (List.replicate (right - left) l.style.glyph) := by
  have single : l.isMultiline = false := ResolvedLabel.single_iff.mpr (by rw [start, stop])
  obtain ⟨number, eq⟩ := f.marks_of_label distinct hl single (by rw [start])
  have marked : (number, l.marker l.start.column l.stop.column l.message) ∈ f.marksOf line :=
    List.mem_of_mem_filter (eq ▸ List.mem_singleton.mpr rfl)
  obtain ⟨row, here, member, printed, printed_row, shown⟩ := shows.underlined _ marked
  have first : (l.marker l.start.column l.stop.column l.message).start = 1 + left := by
    rw [start]
    rfl
  have last : (l.marker l.start.column l.stop.column l.message).stop = 1 + right := by
    rw [start, stop]
    exact Nat.max_eq_left (show 1 + left + 1 ≤ 1 + right by omega)
  refine ⟨number, _, eq, first, last, rfl, row, here, member, printed, printed_row, ?_⟩
  have glyphs : (l.marker l.start.column l.stop.column l.message).item.text.chars =
      List.replicate (right - left) l.style.glyph := by
    rw [Marker.item, Strip.chars_repeated, Coordinate.toCount_nat, first, last,
      Nat.add_sub_add_left]
    rfl
  rw [glyphs, first, Nat.add_sub_assoc (Nat.le_add_right 1 left), Nat.add_sub_cancel_left] at shown
  exact shown

end Layout.FileLabels

/-- Underlines are under the text they mark. What is written without colors is what
the report prints, and the report prints each source line with its tabs expanded from
the text column on, with its markers below it, where those of different labels share no
cell. A label on some text of one line has one marker there, and the glyphs of it are
at exactly the columns at which the source row shows the marked text. -/
theorem underlines_in_place {store : Store} {config : Config} {d : Diagnostic}
    {labels : List (ResolvedLabel Nat)}
    (resolved : d.resolveLabels store.sources config = .ok labels)
    {order : Nat} {label : Label} (own : d.labels[order]? = some label)
    {id : Number} {start stop line : Nat} (span : label.span = ⟨id, start, stop⟩)
    {range : ByteRange} (ranged : store.sources.lineRange id (line : Number) = some range)
    (from_start : range.start ≤ start) (wide : start < stop) (to_stop : stop ≤ range.stop)
    (p : Palette) :
    (∀ options text, options.settings.resolve = .ok config →
      d.format store.sources options false = .ok text →
      text.chars = Document.printed (Palette.report ⟨options.theme.resolve, d.severity⟩ d
        (layoutLabels store.sources config labels))) ∧
    (∀ layout ∈ layoutLabels store.sources config labels, ∀ block,
      .source block ∈ layout.blocks →
      block.text =
          Columns.expand config.tabWidth (store.sources.line layout.file (block.line : Number)) ∧
        (∃ above below,
          Document.printed (p.report d (layoutLabels store.sources config labels)) =
            above ++ (Document.printed (p.sourceRow layout.gutterWidth block) ++
              block.rows.flatMap fun row =>
                Document.printed (p.annotationRow layout.gutterWidth row)) ++ below) ∧
        p.ShowsLine layout block
          ((FileLabels.select store.sources config labels layout.file).marksOf block.line)) ∧
    ∃ layout ∈ layoutLabels store.sources config labels, layout.file = id ∧
      ∃ block, .source block ∈ layout.blocks ∧ block.line = line ∧
      ∃ before part left right, store.sources.slice id range.start start = some before ∧
        store.sources.slice id start stop = some part ∧
        left = Columns.width config.tabWidth before ∧
        right = Columns.width config.tabWidth (before ++ part) ∧ left < right ∧
        ShownAt (Document.printed (p.sourceRow layout.gutterWidth block))
          (layout.textColumn + left) (Columns.expandFrom config.tabWidth left part.toList).chars ∧
        left + (Columns.expandFrom config.tabWidth left part.toList).chars.length = right ∧
        ∃ number m, ((FileLabels.select store.sources config labels id).marksOf line).filter
            (fun mark => mark.2.order == order) = [(number, m)] ∧
          m.start = 1 + left ∧ m.stop = 1 + right ∧ m.style = label.style ∧
          ∃ row, block.rows[number]? = some row ∧ m.item ∈ row.items ∧
          ∃ printed, Document.printed (p.annotationRow layout.gutterWidth row) = printed ++ ['\n'] ∧
            ShownAt printed (layout.textColumn + left)
              (List.replicate (right - left) label.style.glyph) := by
  have proper := Diagnostic.proper_of_resolveLabels resolved
  refine ⟨fun options text valid => Diagnostic.chars_format valid resolved, ?_, ?_⟩
  · intro layout hl block hb
    have rows := p.printed_report hl hb (d := d)
    obtain ⟨first, _, rfl⟩ := Layout.mem_layoutLabels.mp hl
    obtain ⟨line, shown, rfl⟩ := (FileLabels.source_mem_layout _).mp hb
    exact ⟨rfl, rows, FileLabels.showsLine _
      (fun l hl => proper l (FileLabels.mem_select.mp hl).1) shown p⟩
  · obtain ⟨l, member, found⟩ := Diagnostic.resolved_of_resolveLabels resolved own
    obtain ⟨before, text, here, rfl⟩ := Store.hasLine_of_lineRange ranged
    obtain ⟨front, part, hf, filled, rfl, rfl, eq⟩ :=
      here.resolve found span from_start wide to_stop
    let f := FileLabels.select store.sources config labels id
    have hl : l ∈ f.labels := FileLabels.mem_select.mpr ⟨member, by rw [eq]⟩
    have shown : line ∈ f.shown := by
      have first := f.start_mem_shown hl
      rwa [eq] at first
    have in_layouts : f.layout ∈ layoutLabels store.sources config labels :=
      Layout.mem_layoutLabels.mpr ⟨l, member, by rw [eq]⟩
    have in_blocks : .source (f.sourceBlock line) ∈ f.layout.blocks :=
      f.source_mem_layout.mpr ⟨line, shown, rfl⟩
    have distinct : (f.labels.map (·.order)).Nodup :=
      FileLabels.nodup_select (Diagnostic.nodup_order_of_resolveLabels resolved) ..
    have shows := f.showsLine (fun l hl => proper l (FileLabels.mem_select.mp hl).1) shown p
    have line_text : f.textAt line = String.ofList text := here.line_eq
    obtain ⟨covers, length, grows⟩ := f.shownAt_part line_text hf filled shows
    have start_at : l.start = ⟨line, 1 + Columns.width config.tabWidth (String.ofList front)⟩ := by
      rw [eq]
    have stop_at : l.stop = ⟨line, 1 + Columns.width config.tabWidth
        (String.ofList front ++ String.ofList part)⟩ := by
      rw [eq, String.ofList_append]
    obtain ⟨number, m, underline⟩ := f.underline_of_label distinct hl start_at stop_at grows shows
    rw [eq] at underline
    have from_line : [] ++ front <+: text := (List.prefix_append front part).trans hf
    have before_part := here.slice from_line
    exact ⟨f.layout, in_layouts, rfl, f.sourceBlock line, in_blocks, rfl, String.ofList front,
      String.ofList part, _, _, before_part, here.slice hf, rfl, rfl, grows, covers, length,
      number, m, underline⟩

theorem underlines_in_place_sample :
    ∃ labels layout block row printed left right,
      Sample.diagnostic.resolveLabels Sample.store.sources .standard = .ok labels ∧
      layout ∈ layoutLabels Sample.store.sources .standard labels ∧
      .source block ∈ layout.blocks ∧ row ∈ block.rows ∧
      Document.printed (Palette.annotationRow ⟨.standard, .error⟩ layout.gutterWidth row) =
        printed ++ ['\n'] ∧ left < right ∧
      ShownAt printed (layout.textColumn + left) (List.replicate (right - left) '^') := by
  have span : Sample.part.span = ⟨(0 : Nat), (1 : Nat), (3 : Nat)⟩ := rfl
  have own : Sample.diagnostic.labels[0]? = some Sample.part := rfl
  have placed := underlines_in_place Sample.resolved own span Sample.line_one.range
    (by decide) (by decide) (by decide) ⟨.standard, .error⟩
  obtain ⟨_, _, layout, hl, _, block, hb, _, _, _, left, right, _, _, _, _, grows, _, _, _, _, _,
    _, _, _, row, here, _, printed, eq, shown⟩ := placed
  exact ⟨_, layout, block, row, printed, left, right, Sample.resolved, hl, hb,
    List.mem_of_getElem? here, eq, grows, shown⟩

end Excerpt
