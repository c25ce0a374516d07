import Excerpt.Proofs.Completeness
import Excerpt.Proofs.Source.Terminator
import Excerpt.Proofs.Spans

/-! How far markers reach. An offset on a line is at most at the column behind the text of
the line, unless it is behind the carriage return of a terminator; so a marker starts on a
cell of its line or right behind the last one, and covers no more than one cell behind. -/
namespace Excerpt

open Layout (FileLabels)
open SourceFile (byteLength shownPart returnPart)

theorem lastLine_free (text : List Char) : '\n' ∉ lastLine text := by
  intro feed
  have kept := List.mem_rtakeWhile_imp feed
  simp at kept

namespace SourceFile

variable {file : SourceFile} {before line : List Char}

theorem exists_line_of_front (hf : before <+: file.source.toList) :
    ∃ line, file.lines[before.count '\n']? = some line := by
  have lines := file.length_lines
  have within := hf.sublist.count_le '\n'
  exact ⟨_, List.getElem?_eq_getElem (show before.count '\n' < file.lines.length by omega)⟩

/-- A front of a text ends on a front of a line. -/
theorem lastLine_prefix (hf : before <+: file.source.toList)
    (found : file.lines[before.count '\n']? = some line) :
    before = file.front (before.count '\n') ++ lastLine before ∧ lastLine before <+: line := by
  obtain ⟨after, split, behind⟩ := split_at_line found
  have whole : before = file.front (before.count '\n') ++ lastLine before :=
    (Nat.add_comm _ 1 ▸ split).front_eq hf
  refine ⟨whole, ?_⟩
  have inside : lastLine before <+: line ++ after := by
    rw [whole, split.source, List.append_assoc] at hf
    exact (List.prefix_append_right_inj _).mp hf
  rcases List.prefix_or_prefix_of_prefix inside (List.prefix_append line after) with
    shorter | ⟨more, longer⟩
  · exact shorter
  · -- What is behind the line starts with a line feed, and the front has none there.
    rw [← longer, List.prefix_append_right_inj] at inside
    cases more with
    | nil => exact ⟨[], by rw [← longer, List.append_nil, List.append_nil]⟩
    | cons c more =>
      rcases behind with ⟨_, rest, rfl⟩ | ⟨_, rfl⟩
      · obtain ⟨rfl, _⟩ := List.cons_prefix_cons.mp inside
        exact absurd (by rw [← longer]; simp) (lastLine_free before)
      · simp at inside

/-- A front of a text in front of a line feed reaches over the whole of its last line. -/
theorem lastLine_before_feed {rest : List Char}
    (source : before ++ '\n' :: rest = file.source.toList)
    (found : file.lines[before.count '\n']? = some line) : lastLine before = line := by
  obtain ⟨whole, more, part⟩ := lastLine_prefix ⟨_, source⟩ found
  obtain ⟨after, split, _⟩ := split_at_line found
  have behind : more ++ after = '\n' :: rest := by
    have cut := split.source
    rw [← source, ← part, ← List.append_assoc, ← whole] at cut
    simpa using cut.symm
  cases more with
  | nil => rw [← part, List.append_nil]
  | cons c more =>
    obtain ⟨rfl, _⟩ := List.cons.inj behind
    exact absurd (part ▸ by simp) split.free

/-- A front of a line has no more than what the line shows, or it is the whole line with the
carriage return that the line ends in. -/
theorem prefix_line_cases {part : List Char} (h : part <+: line) :
    part <+: shownPart line ∨ part = line ∧ line = shownPart line ++ ['\r'] := by
  have parts := shownPart_append_returnPart line
  by_cases ends : line.getLast? = some '\r'
  · rw [returnPart, if_pos ends] at parts
    rw [← parts] at h
    rcases List.prefix_concat_iff.mp h with all | shorter
    · exact .inr ⟨all.trans parts, parts.symm⟩
    · exact .inl shorter
  · rw [returnPart, if_neg ends, List.append_nil] at parts
    exact .inl (by rwa [parts])

end SourceFile

theorem Columns.width_le_of_prefix {tabWidth : Nat} (pos : 0 < tabWidth) {a b : List Char}
    (h : a <+: b) : width tabWidth (String.ofList a) ≤ width tabWidth (String.ofList b) := by
  obtain ⟨rest, rfl⟩ := h
  have further := le_endOf pos (width tabWidth (String.ofList a)) rest
  rw [String.ofList_append, width_append, String.toList_ofList]
  omega

/-- A carriage return takes one column. -/
theorem Columns.width_return (tabWidth : Nat) (text : List Char) :
    width tabWidth (String.ofList (text ++ ['\r'])) = width tabWidth (String.ofList text) + 1 := by
  rw [String.ofList_append, width_append, String.toList_ofList]
  rfl

/-- The columns a line takes up without its terminator. -/
def Sources.lineWidth (sources : Sources) (config : Config) (file : Number) (line : Nat) : Nat :=
  Columns.width config.tabWidth (sources.line file (line : Number))

namespace Store

/-- Offsets between the carriage return and the line feed behind a line. -/
def InsideTerminator (store : Store) (id : Number) (line : Nat) (offset : Number) : Prop :=
  ∃ file before, store.file? id = some file ∧ before ++ ['\r', '\n'] <+: file.source.toList ∧
    line = 1 + before.count '\n' ∧ offset = (byteLength (before ++ ['\r']) : Number)

/-- The offset behind a carriage return that a text ends in. -/
def BehindLastReturn (store : Store) (id offset : Number) : Prop :=
  ∃ file, store.file? id = some file ∧ file.source.toList.getLast? = some '\r' ∧
    offset = (file.byteCount : Number)

variable {store : Store} {id : Number} {file : SourceFile}

/-- Behind the carriage return that a line ends in stands a line feed, or the text ends. -/
theorem behind_return (known : store.file? id = some file) {index : Nat} {line : List Char}
    (found : file.lines[index]? = some (line ++ ['\r'])) :
    let offset : Number := byteLength (file.front index ++ line ++ ['\r'])
    store.InsideTerminator id (1 + index) offset ∨ store.BehindLastReturn id offset := by
  obtain ⟨after, split, behind⟩ := SourceFile.split_at_line found
  have source : file.source.toList = file.front index ++ line ++ ['\r'] ++ after := by
    rw [split.source, ← List.append_assoc]
  rcases behind with ⟨_, rest, rfl⟩ | ⟨_, rfl⟩
  · refine .inl ⟨file, file.front index ++ line, known, ⟨rest, by rw [source]; simp⟩, ?_, rfl⟩
    have lines := congrArg ByteLocation.line (split.start.symm.trans (ByteLocation.foldl_next _))
    have free : '\n' ∉ line := fun feed => split.free (List.mem_append_left _ feed)
    rw [List.count_append, List.count_eq_zero_of_not_mem free]
    exact (Nat.add_comm 1 index).trans lines
  · rw [List.append_nil] at source
    refine .inr ⟨file, known, ?_, by rw [SourceFile.byteCount, source]⟩
    rw [source]
    exact List.getLast?_concat

theorem lineWidth_of_line (known : store.file? id = some file) {index : Nat} {line : List Char}
    (found : file.lines[index]? = some line) (config : Config) :
    store.sources.lineWidth config id (1 + index) =
      Columns.width config.tabWidth (String.ofList (shownPart line)) := by
  rw [Sources.lineWidth, Nat.add_comm, line_of_line known found]

/-- The column behind a front of a text is on the line or right behind it, except behind a
carriage return that the line ends in. -/
theorem reach_of_front (known : store.file? id = some file) {before : List Char}
    (hf : before <+: file.source.toList) (config : Config) :
    let place : Position Nat := .behind config.tabWidth before
    place.column ≤ 1 + store.sources.lineWidth config id place.line ∨
      place.column = 2 + store.sources.lineWidth config id place.line ∧
        (store.InsideTerminator id place.line (byteLength before : Number) ∨
          store.BehindLastReturn id (byteLength before : Number)) := by
  intro place
  obtain ⟨line, found⟩ := SourceFile.exists_line_of_front hf
  obtain ⟨whole, part⟩ := SourceFile.lastLine_prefix hf found
  have width : store.sources.lineWidth config id place.line =
      Columns.width config.tabWidth (String.ofList (shownPart line)) :=
    lineWidth_of_line known found config
  have column : place.column =
      1 + Columns.width config.tabWidth (String.ofList (lastLine before)) := rfl
  rw [width, column]
  rcases SourceFile.prefix_line_cases part with shorter | ⟨all, ends⟩
  · exact .inl (Nat.add_le_add_left (Columns.width_le_of_prefix config.tabWidth_pos shorter) 1)
  · refine .inr ⟨?_, ?_⟩
    · rw [all, ends, Columns.width_return, ← ends]
      omega
    · -- The front is what the line shows, behind the lines before it, and a carriage return.
      have front : file.front (before.count '\n') ++ shownPart line ++ ['\r'] = before := by
        rw [List.append_assoc, ← ends, ← all, ← whole]
      have behind := behind_return known (ends ▸ found)
      rwa [front] at behind

/-- Behind a carriage return in front of a line feed is the second column behind the line. -/
theorem column_inside_terminator (known : store.file? id = some file) {before : List Char}
    (inside : before ++ ['\r', '\n'] <+: file.source.toList) (config : Config) :
    (Position.behind config.tabWidth (before ++ ['\r']) : Position Nat) =
      ⟨1 + before.count '\n', 2 + store.sources.lineWidth config id (1 + before.count '\n')⟩ := by
  obtain ⟨rest, terminated⟩ := inside
  have source : before ++ ['\r'] ++ '\n' :: rest = file.source.toList := by
    rw [← terminated]
    simp
  have feeds : (before ++ ['\r']).count '\n' = before.count '\n' := by simp
  obtain ⟨line, found⟩ := SourceFile.exists_line_of_front ⟨_, source⟩
  have whole := SourceFile.lastLine_before_feed source found
  rw [lastLine_append (by decide)] at whole
  have shown : shownPart line = lastLine before := by simp [← whole, shownPart]
  rw [feeds] at found
  rw [Position.behind, feeds, lastLine_append (by decide), Columns.width_return,
    lineWidth_of_line known found, shown]
  exact congrArg _ (by omega)

end Store

namespace ResolvedLabel

variable {sources : Sources} {config : Config} {l : ResolvedLabel Nat} {line : Nat}
  {item : RowItem Nat}

/-- Every underline of a label starts with its line or where the label does, and ends with
its line or where the label does unless it has one column only. -/
theorem ends_of_mem_underlines (h : (line, item) ∈ l.underlines sources config) :
    ∃ start stop, item = l.style.underline start stop ∧ start < stop ∧
      (line = l.start.line ∧ start = l.start.column ∨ start = 1) ∧
      (stop = start + 1 ∨ stop = 1 + sources.lineWidth config l.file line ∨
        line = l.stop.line ∧ stop = l.stop.column) := by
  rw [underlines] at h
  split at h
  · rcases List.mem_pair.mp h with eq | eq
    · obtain ⟨rfl, rfl⟩ := Prod.mk.inj eq
      refine ⟨_, _, rfl, by omega, .inl ⟨rfl, rfl⟩, ?_⟩
      rw [Sources.lineWidth]
      omega
    · obtain ⟨rfl, rfl⟩ := Prod.mk.inj eq
      exact ⟨_, _, rfl, by omega, .inr rfl, by omega⟩
  · rename_i single
    obtain ⟨rfl, rfl⟩ := Prod.mk.inj (List.mem_singleton.mp h)
    have same := single_iff.mp (Bool.eq_false_iff.mpr single)
    exact ⟨_, _, rfl, by omega, .inl ⟨rfl, rfl⟩, by omega⟩

/-- A label whose ends are at most one column too far has underlines that are on their
lines but for one column behind, except where it starts too far itself. -/
theorem reach_of_mem_underlines (h : (line, item) ∈ l.underlines sources config)
    (start : l.start.column ≤ 2 + sources.lineWidth config l.file l.start.line)
    (stop : l.stop.column ≤ 2 + sources.lineWidth config l.file l.stop.line) :
    let width := sources.lineWidth config l.file line
    item.column ≤ 1 + width ∧ item.stop ≤ 2 + width ∨
      line = l.start.line ∧ l.start.column = 2 + width ∧
        item = l.style.underline (2 + width) (3 + width) := by
  intro width
  obtain ⟨first, behind, rfl, filled, starts, ends⟩ := ends_of_mem_underlines h
  have reached : (l.style.underline first behind).stop = behind := by
    rw [RowItem.stop, Strip.length_eq]
    simp [LabelStyle.underline]
    omega
  have column : (l.style.underline first behind).column = first := rfl
  have first_le : first ≤ 2 + width ∧
      (first = 2 + width → line = l.start.line ∧ l.start.column = first) := by
    rcases starts with ⟨rfl, rfl⟩ | rfl
    · exact ⟨start, fun _ => ⟨rfl, rfl⟩⟩
    · exact ⟨by omega, by omega⟩
  have behind_le : behind = first + 1 ∨ behind ≤ 2 + width := by
    rcases ends with one | own | ⟨rfl, rfl⟩
    · exact .inl one
    · exact .inr (by omega)
    · exact .inr stop
  rw [reached, column]
  by_cases far : first = 2 + width
  · obtain ⟨own, here⟩ := first_le.2 far
    have one : behind = 3 + width := by omega
    exact .inr ⟨own, here.trans far, by rw [far, one]⟩
  · exact .inl (by omega)

end ResolvedLabel

namespace Layout.FileLabels

/-- A marker below a line of a layout is an underline of a label. -/
theorem underline_of_marker (f : FileLabels Nat) (own : ∀ l ∈ f.labels, l.file = f.file)
    {block : SourceBlock Nat} (hb : .source block ∈ f.layout.blocks) {row : AnnotationRow Nat}
    (hr : row ∈ block.rows) {item : RowItem Nat} (hi : item ∈ row.items)
    (role : item.role = .marker) :
    ∃ l ∈ f.labels, (block.line, item) ∈ l.underlines f.sources f.config := by
  obtain ⟨number, found⟩ := List.mem_iff_getElem?.mp hr
  have numbered : (number, item) ∈ block.items .marker := by
    refine List.mem_filter.mpr ⟨(mem_numbered_zero _ _ _).mpr ⟨row.items, ?_, hi⟩, ?_⟩
    · rw [List.getElem?_map, found, Option.map_some]
    · exact decide_eq_true role
  have drawn : (block.line, number, item) ∈ f.layout.items .marker :=
    List.mem_flatMap.mpr ⟨block, mem_sourceBlocks.mpr hb, List.mem_map_of_mem numbered⟩
  have placed := f.markers_layout.mem_iff.mp (List.mem_map_of_mem drawn)
  obtain ⟨l, hl, marked⟩ := List.mem_flatMap.mp placed
  exact ⟨l, hl, ResolvedLabel.items_markers f (own l hl) ▸ marked⟩

/-- An underline of a label is a marker below its line. -/
theorem marker_of_underline (f : FileLabels Nat) {l : ResolvedLabel Nat} (hl : l ∈ f.labels)
    (own : l.file = f.file) {line : Nat} {item : RowItem Nat}
    (marked : (line, item) ∈ l.underlines f.sources f.config) :
    ∃ block, .source block ∈ f.layout.blocks ∧ block.line = line ∧
      ∃ row ∈ block.rows, item ∈ row.items ∧ item.role = .marker := by
  rw [← ResolvedLabel.items_markers f own] at marked
  obtain ⟨⟨_, number, _⟩, drawn, eq⟩ :=
    List.mem_map.mp (f.markers_layout.mem_iff.mpr (List.mem_flatMap.mpr ⟨l, hl, marked⟩))
  obtain ⟨rfl, rfl⟩ := Prod.mk.inj eq
  obtain ⟨block, hb, numbered⟩ := List.mem_flatMap.mp drawn
  obtain ⟨_, kept, eq⟩ := List.mem_map.mp numbered
  obtain ⟨line, rfl⟩ := Prod.mk.inj eq
  obtain ⟨known, role⟩ := List.mem_filter.mp kept
  obtain ⟨_, found, member⟩ := (mem_numbered_zero _ _ _).mp known
  rw [List.getElem?_map] at found
  obtain ⟨row, here, rfl⟩ := Option.map_eq_some_iff.mp found
  exact ⟨block, mem_sourceBlocks.mp hb, line, row, List.mem_of_getElem? here, member,
    of_decide_eq_true role⟩

end Layout.FileLabels

namespace Label

variable {store : Store} {config : Config} {label : Label} {order : Nat} {l : ResolvedLabel Nat}

/-- A label that fits its file starts and ends at most in the second column behind a line. -/
theorem reach_of_resolve (h : label.resolve store.sources config order = .ok l) :
    let width := store.sources.lineWidth config l.file
    (l.start.column ≤ 1 + width l.start.line ∨ l.start.column = 2 + width l.start.line ∧
      (store.InsideTerminator l.file l.start.line label.span.start ∨
        store.BehindLastReturn l.file label.span.start)) ∧
    l.stop.column ≤ 2 + width l.stop.line := by
  obtain ⟨start, stop, ends, rfl⟩ := resolve_eq_ok_iff.mp h
  obtain ⟨before, whole, ⟨⟨file, known, hb, hw⟩, at_start, _, _⟩, rfl, rfl⟩ :=
    Span.resolve_eq_ok_iff_fits.mp ends
  have first := Store.reach_of_front known hb config
  have last := Store.reach_of_front known hw config
  rw [← at_start] at first
  refine ⟨first, ?_⟩
  rcases last with within | ⟨far, _⟩
  · exact Nat.le_trans within (Nat.add_le_add_right (by decide) _)
  · exact Nat.le_of_eq far

/-- A label that starts inside of a terminator is not moved onto the line. -/
theorem start_inside_terminator (h : label.resolve store.sources config order = .ok l) {line : Nat}
    (inside : store.InsideTerminator l.file line label.span.start) :
    l.start = ⟨line, 2 + store.sources.lineWidth config l.file line⟩ := by
  obtain ⟨start, stop, ends, rfl⟩ := resolve_eq_ok_iff.mp h
  obtain ⟨front, _, ⟨⟨file, known, hf, _⟩, at_start, _, _⟩, rfl, _⟩ :=
    Span.resolve_eq_ok_iff_fits.mp ends
  obtain ⟨other, before, here, terminated, rfl, offset⟩ := inside
  obtain rfl : file = other := Option.some.inj (known.symm.trans here)
  have longer : before ++ ['\r'] <+: file.source.toList :=
    List.IsPrefix.trans ⟨['\n'], by simp⟩ terminated
  have same : byteLength front = byteLength (before ++ ['\r']) :=
    Option.some.inj (by
      rw [← Number.toNat?_natCast, ← at_start, offset, Number.toNat?_natCast])
  have own := (SourceFile.prefix_of_byteLength_le hf longer (Nat.le_of_eq same)).eq_of_length_le
    (SourceFile.prefix_of_byteLength_le longer hf (Nat.le_of_eq same.symm)).length_le
  rw [own]
  exact Store.column_inside_terminator known terminated config

end Label

/-- Markers do not hang off the lines they are drawn below. Every marker of a layout is
drawn for a label; it starts on a cell of its line or right behind the last one, and covers
no more than one column behind the line. The exception is the first marker of a label that
starts between the carriage return and the line feed behind the line: such a label is not
moved onto the line, and the marker is on the one column after that. Labels that start
behind a carriage return at the end of the text are left out here. -/
theorem markers_reach_line_end {store : Store} {config : Config} {d : Diagnostic}
    {labels : List (ResolvedLabel Nat)}
    (resolved : d.resolveLabels store.sources config = .ok labels) :
    (∀ layout ∈ layoutLabels store.sources config labels,
      ∀ block, .source block ∈ layout.blocks → ∀ row ∈ block.rows, ∀ item ∈ row.items,
        item.role = .marker →
          ∃ (order : Nat) (label : Label) (l : ResolvedLabel Nat),
            d.labels[order]? = some label ∧ labels[order]? = some l ∧ l.file = layout.file ∧
            (block.line, item) ∈ l.underlines store.sources config ∧
            let width := store.sources.lineWidth config layout.file block.line
            (item.column ≤ 1 + width ∧ item.stop ≤ 2 + width ∨
              store.InsideTerminator layout.file block.line label.span.start ∧
                item = l.style.underline (2 + width) (3 + width) ∨
              store.BehindLastReturn layout.file label.span.start)) ∧
    ∀ (order : Nat) (label : Label) (l : ResolvedLabel Nat), d.labels[order]? = some label →
      labels[order]? = some l → ∀ line, store.InsideTerminator l.file line label.span.start →
        l.start = ⟨line, 2 + store.sources.lineWidth config l.file line⟩ := by
  refine ⟨?_, ?_⟩
  · intro layout hl block hb row hr item hi role
    obtain ⟨_, _, rfl⟩ := Layout.mem_layoutLabels.mp hl
    obtain ⟨l, own, marked⟩ := Layout.FileLabels.underline_of_marker _
      (fun l own => (Layout.FileLabels.mem_select.mp own).2) hb hr hi role
    replace marked : (block.line, item) ∈ l.underlines store.sources config := marked
    obtain ⟨member, same⟩ := Layout.FileLabels.mem_select.mp own
    obtain ⟨order, found⟩ := List.mem_iff_getElem?.mp member
    obtain ⟨label, known, own⟩ := (Diagnostic.resolveLabels_getElem? resolved order l).mp found
    refine ⟨order, label, l, known, found, same, marked, ?_⟩
    intro width
    obtain ⟨start, stop⟩ := Label.reach_of_resolve own
    have start_le : l.start.column ≤
        2 + store.sources.lineWidth config l.file l.start.line := by omega
    rcases ResolvedLabel.reach_of_mem_underlines marked start_le stop with
      within | ⟨line, far, drawn⟩
    · rw [same] at within
      exact .inl within
    · have off := (start.resolve_left (by rw [← line]; omega)).2
      rw [same, ← line] at off
      rw [same] at drawn
      exact .inr (off.imp_left fun inside => ⟨inside, drawn⟩)
  · intro order label l known found line inside
    obtain ⟨other, here, own⟩ := (Diagnostic.resolveLabels_getElem? resolved order l).mp found
    obtain rfl : label = other := Option.some.inj (known.symm.trans here)
    exact Label.start_inside_terminator own inside

/-! ## A label between a carriage return and a line feed -/

namespace Sample

def returned : Store := .ofList [("f", "ab\r\n")]

def atFeed : Label := ⟨.primary, ⟨(0 : Nat), (3 : Nat), (3 : Nat)⟩, none⟩

def feedDiagnostic : Diagnostic := ⟨.error, none, "m", [atFeed], []⟩

def feedFound : ResolvedLabel Nat := ⟨.primary, none, (0 : Nat), ⟨1, 4⟩, ⟨1, 4⟩, 0⟩

theorem feed_resolved :
    feedDiagnostic.resolveLabels returned.sources .standard = .ok [feedFound] := by
  decide +kernel

theorem feed_inside : returned.InsideTerminator (0 : Nat) 1 (3 : Nat) :=
  ⟨_, "ab".toList, rfl, by decide, by decide, rfl⟩

theorem feed_width : returned.sources.lineWidth .standard (0 : Nat) 1 = 2 := by decide +kernel

theorem feed_marker : ∃ layout ∈ layoutLabels returned.sources .standard [feedFound],
    layout.file = (0 : Nat) ∧ ∃ block, .source block ∈ layout.blocks ∧ block.line = 1 ∧
      ∃ row ∈ block.rows, ∃ item ∈ row.items, item.role = .marker ∧ item.column = 4 := by
  let f := FileLabels.select returned.sources .standard [feedFound] (0 : Nat)
  have own : feedFound ∈ f.labels := FileLabels.mem_select.mpr ⟨by simp, rfl⟩
  have marked : (1, feedFound.style.underline 4 5) ∈ feedFound.underlines f.sources f.config := by
    have single : feedFound.isMultiline = false := rfl
    rw [ResolvedLabel.underlines, single]
    exact List.mem_singleton.mpr rfl
  obtain ⟨block, hb, line, row, hr, hi, role⟩ := f.marker_of_underline own rfl marked
  exact ⟨f.layout, Layout.mem_layoutLabels.mpr ⟨feedFound, by simp, rfl⟩, rfl, block, hb, line,
    row, hr, _, hi, role, rfl⟩

end Sample

theorem markers_reach_line_end_sample :
    Sample.feedDiagnostic.resolveLabels Sample.returned.sources .standard =
        .ok [Sample.feedFound] ∧
      Sample.feedFound.start = ⟨1, 2 + Sample.returned.sources.lineWidth .standard (0 : Nat) 1⟩ ∧
      ∃ item ∈ Sample.feedFound.underlines Sample.returned.sources .standard,
        item.2.role = .marker := by
  obtain ⟨drawn, inside⟩ := markers_reach_line_end Sample.feed_resolved
  obtain ⟨layout, hl, _, block, hb, _, row, hr, item, hi, role, _⟩ := Sample.feed_marker
  obtain ⟨order, _, l, _, found, _, marked, _⟩ := drawn layout hl block hb row hr item hi role
  have only : l = Sample.feedFound := List.mem_singleton.mp (List.mem_of_getElem? found)
  exact ⟨Sample.feed_resolved, inside 0 Sample.atFeed Sample.feedFound rfl rfl 1 Sample.feed_inside,
    (block.line, item), only ▸ marked, role⟩

/-- The marker of a label behind a carriage return is not on the line and not on the column
behind it. -/
theorem marker_behind_return_hangs_off :
    Sample.feedDiagnostic.resolveLabels Sample.returned.sources .standard =
        .ok [Sample.feedFound] ∧
      ∃ layout ∈ layoutLabels Sample.returned.sources .standard [Sample.feedFound],
        ∃ block, .source block ∈ layout.blocks ∧ ∃ row ∈ block.rows, ∃ item ∈ row.items,
          item.role = .marker ∧
            ¬item.column ≤ 1 + Sample.returned.sources.lineWidth .standard layout.file
              block.line := by
  obtain ⟨layout, hl, file, block, hb, line, row, hr, item, hi, role, column⟩ := Sample.feed_marker
  refine ⟨Sample.feed_resolved, layout, hl, block, hb, row, hr, item, hi, role, ?_⟩
  rw [file, line, Sample.feed_width, column]
  decide

end Excerpt
