import Excerpt.Proofs.Layout.Gaps
import Excerpt.Proofs.Reach

/-! Which lines are shown. Those are the lines that labels start or end on, the lines inside
of labels with few of them, and context around the first and the last of all; the gaps
between them are marked. -/
namespace Excerpt

open Layout (FileLabels)

theorem mem_linesBefore {first stop line : Nat} :
    line ∈ linesBefore stop first ↔ first ≤ line ∧ line < stop := by
  rw [linesBefore_nat, List.mem_range'_1]
  omega

theorem mem_linesTo {first last line : Nat} :
    line ∈ linesTo last first ↔ first ≤ line ∧ line ≤ last := by
  rw [linesTo_nat, List.mem_range'_1]
  omega

namespace ResolvedLabel

/-- The lines a label starts and ends on. -/
def endLines (l : ResolvedLabel Nat) : List Nat := [l.start.line, l.stop.line]

/-- Lines strictly inside of a label, if it has no more than the threshold allows. -/
def Interior (l : ResolvedLabel Nat) (config : Config) (line : Nat) : Prop :=
  l.stop.line - l.start.line - 1 ≤ config.elisionThreshold ∧
    l.start.line < line ∧ line < l.stop.line

theorem mem_endLines {l : ResolvedLabel Nat} {line : Nat} :
    line ∈ l.endLines ↔ line = l.start.line ∨ line = l.stop.line := by
  simp [endLines]

theorem mem_shownLines {l : ResolvedLabel Nat} {config : Config} {line : Nat} :
    line ∈ l.shownLines config ↔ line ∈ l.endLines ∨ l.Interior config line := by
  rw [shownLines, List.mem_append, Interior]
  apply or_congr_right
  split
  · rename_i few
    have few : l.stop.line - l.start.line - 1 ≤ config.elisionThreshold := few
    rw [mem_linesBefore]
    exact ⟨fun inside => ⟨few, inside⟩, fun inside => inside.2⟩
  · rename_i many
    exact ⟨fun none => absurd none List.not_mem_nil, fun inside => absurd inside.1 many⟩

end ResolvedLabel

/-- Extremes of some lines are extremes of more lines that are between them. -/
theorem min?_eq_of_bounds {some_lines more : List Nat} {first : Nat}
    (h : some_lines.min? = some first) (sub : some_lines ⊆ more)
    (bound : ∀ x ∈ more, ∃ y ∈ some_lines, y ≤ x) : more.min? = some first := by
  obtain ⟨member, least⟩ := List.min?_eq_some_iff.mp h
  refine List.min?_eq_some_iff.mpr ⟨sub member, ?_⟩
  intro x hx
  obtain ⟨y, hy, le⟩ := bound x hx
  exact Nat.le_trans (least y hy) le

theorem max?_eq_of_bounds {some_lines more : List Nat} {last : Nat}
    (h : some_lines.max? = some last) (sub : some_lines ⊆ more)
    (bound : ∀ x ∈ more, ∃ y ∈ some_lines, x ≤ y) : more.max? = some last := by
  obtain ⟨member, greatest⟩ := List.max?_eq_some_iff.mp h
  refine List.max?_eq_some_iff.mpr ⟨sub member, ?_⟩
  intro x hx
  obtain ⟨y, hy, le⟩ := bound x hx
  exact Nat.le_trans le (greatest y hy)

/-- The lines that labels start and end on have a first and a last one. -/
theorem exists_extremes {labels : List (ResolvedLabel Nat)} (filled : labels ≠ []) :
    ∃ first last, (labels.flatMap ResolvedLabel.endLines).min? = some first ∧
      (labels.flatMap ResolvedLabel.endLines).max? = some last := by
  obtain ⟨l, others, rfl⟩ := List.exists_cons_of_ne_nil filled
  exact ⟨_, _, List.min?_cons, List.max?_cons⟩

namespace Layout.FileLabels

variable (f : FileLabels Nat)

/-- What is shown besides the lines of labels: context, with the first and the last line
that a label starts or ends on. -/
theorem mem_shown_iff (ordered : ∀ l ∈ f.labels, l.start.line ≤ l.stop.line) {first last : Nat}
    (least : (f.labels.flatMap ResolvedLabel.endLines).min? = some first)
    (greatest : (f.labels.flatMap ResolvedLabel.endLines).max? = some last) (x : Nat) :
    x ∈ f.shown ↔ (∃ l ∈ f.labels, x ∈ l.endLines ∨ l.Interior f.config x) ∨
      (max 1 (first - f.config.linesBefore) ≤ x ∧ x < first) ∨
      last < x ∧ x ≤ min f.lineCount (last + f.config.linesAfter) := by
  have sub : f.labels.flatMap ResolvedLabel.endLines ⊆
      f.labels.flatMap (ResolvedLabel.shownLines f.config) := by
    intro x hx
    obtain ⟨l, hl, own⟩ := List.mem_flatMap.mp hx
    exact List.mem_flatMap.mpr ⟨l, hl, ResolvedLabel.mem_shownLines.mpr (.inl own)⟩
  -- A line that a label shows is not before its start and not behind its end.
  have between : ∀ x ∈ f.labels.flatMap (ResolvedLabel.shownLines f.config),
      ∃ l ∈ f.labels, l.start.line ≤ x ∧ x ≤ l.stop.line := by
    intro x hx
    obtain ⟨l, hl, shown⟩ := List.mem_flatMap.mp hx
    have in_order := ordered l hl
    refine ⟨l, hl, ?_⟩
    rcases ResolvedLabel.mem_shownLines.mp shown with own | ⟨_, inside⟩
    · rcases ResolvedLabel.mem_endLines.mp own with rfl | rfl
      · exact ⟨Nat.le_refl _, in_order⟩
      · exact ⟨in_order, Nat.le_refl _⟩
    · omega
  have first_eq := min?_eq_of_bounds least sub fun x hx => by
    obtain ⟨l, hl, le, _⟩ := between x hx
    exact ⟨_, List.mem_flatMap.mpr ⟨l, hl, ResolvedLabel.mem_endLines.mpr (.inl rfl)⟩, le⟩
  have last_eq := max?_eq_of_bounds greatest sub fun x hx => by
    obtain ⟨l, hl, _, le⟩ := between x hx
    exact ⟨_, List.mem_flatMap.mpr ⟨l, hl, ResolvedLabel.mem_endLines.mpr (.inr rfl)⟩, le⟩
  rw [shown, shownLines, mem_eachOnce, List.mem_append, List.mem_flatMap]
  simp only [ResolvedLabel.mem_shownLines, contextLines, first_eq, last_eq, List.mem_append,
    mem_linesBefore, mem_linesTo]
  rfl

/-- If labels end on lines of a file, then all lines shown are such lines, and only lines
that labels start or end on may be behind the counted ones. -/
theorem shown_inside (ordered : ∀ l ∈ f.labels, l.start.line ≤ l.stop.line) (filled : f.labels ≠ [])
    {count : Nat} (counted : f.lineCount = 1 + count ∨ f.lineCount = count)
    (inside : ∀ l ∈ f.labels, ∀ line ∈ l.endLines, 1 ≤ line ∧ line ≤ 1 + count) :
    ∀ x ∈ f.shown, 1 ≤ x ∧ x ≤ 1 + count ∧
      ((∃ l ∈ f.labels, x ∈ l.endLines) ∨ x ≤ f.lineCount) := by
  obtain ⟨first, last, least, greatest⟩ := exists_extremes filled
  have first_inside : 1 ≤ first ∧ first ≤ 1 + count := by
    obtain ⟨l, hl, line⟩ := List.mem_flatMap.mp (List.min?_eq_some_iff.mp least).1
    exact inside l hl first line
  intro x hx
  rcases (f.mem_shown_iff ordered least greatest x).mp hx with
    ⟨l, hl, ends | interior⟩ | before | behind
  · have bounds := inside l hl x ends
    exact ⟨bounds.1, bounds.2, .inl ⟨l, hl, ends⟩⟩
  · have stop := (inside l hl l.stop.line (ResolvedLabel.mem_endLines.mpr (.inr rfl))).2
    obtain ⟨_, after_start, before_stop⟩ := interior
    exact ⟨by omega, by omega, .inr (by omega)⟩
  · exact ⟨by omega, by omega, .inr (by omega)⟩
  · exact ⟨by omega, by omega, .inr (by omega)⟩

end Layout.FileLabels

namespace SourceFile

variable {file : SourceFile}

theorem lineCount_cases (file : SourceFile) :
    file.lineCount = 1 + file.source.toList.count '\n' ∨
      file.lineCount = file.source.toList.count '\n' ∧
        file.source.toList.getLast? = some '\n' := by
  have length := file.length_lines
  rw [lineCount, length]
  split
  · rename_i ends
    exact .inr ⟨Nat.add_sub_cancel _ 1, ends⟩
  · exact .inl (Nat.add_comm _ 1)

end SourceFile

namespace Store

variable {store : Store} {config : Config} {d : Diagnostic} {labels : List (ResolvedLabel Nat)}

/-- The lines that a label starts and ends on are lines of its file. -/
theorem endLines_inside (resolved : d.resolveLabels store.sources config = .ok labels)
    {l : ResolvedLabel Nat} (hl : l ∈ labels) :
    ∃ file, store.file? l.file = some file ∧ ∀ line ∈ l.endLines,
      1 ≤ line ∧ line ≤ 1 + file.source.toList.count '\n' := by
  obtain ⟨order, found⟩ := List.mem_iff_getElem?.mp hl
  obtain ⟨label, _, own⟩ := (Diagnostic.resolveLabels_getElem? resolved order l).mp found
  obtain ⟨start, stop, ends, rfl⟩ := Label.resolve_eq_ok_iff.mp own
  obtain ⟨before, whole, ⟨⟨file, known, hb, hw⟩, _, _, _⟩, rfl, rfl⟩ :=
    Span.resolve_eq_ok_iff_fits.mp ends
  refine ⟨file, known, ?_⟩
  intro line hline
  rcases ResolvedLabel.mem_endLines.mp hline with rfl | rfl
  · exact ⟨Nat.le_add_right 1 _, Nat.add_le_add_left (hb.sublist.count_le '\n') 1⟩
  · exact ⟨Nat.le_add_right 1 _, Nat.add_le_add_left (hw.sublist.count_le '\n') 1⟩

/-- A line behind the counted ones is the empty one at the end of the text. -/
theorem line_beyond_count {id : Number} {file : SourceFile} (known : store.file? id = some file)
    {line : Nat} (beyond : file.lineCount < line)
    (inside : line ≤ 1 + file.source.toList.count '\n') :
    store.sources.line id (line : Number) = "" := by
  have length := file.length_lines
  rcases file.lineCount_cases with all | ⟨counted, ends⟩
  · omega
  · obtain rfl : line = file.source.toList.count '\n' + 1 := by omega
    obtain ⟨text, found⟩ : ∃ text, file.lines[file.source.toList.count '\n']? = some text :=
      ⟨_, List.getElem?_eq_getElem (by omega)⟩
    obtain ⟨rfl, _⟩ := (SourceFile.getLast?_eq_feed_iff found length).mp ends
    rw [line_of_line known found]
    rfl

end Store

/-- The lines shown for the labels of a file are exactly those that the options ask for, in
order: the lines that labels start and end on, the lines inside of labels that are not
elided, and the context before the first and behind the last of all lines that labels
start or end on. All of them are lines of the file. The empty line behind a line feed at
the end of the text is shown for labels that start or end on it only. The gaps between the
shown lines are marked, each once. -/
theorem shown_lines_exact {store : Store} {config : Config} {d : Diagnostic}
    {labels : List (ResolvedLabel Nat)}
    (resolved : d.resolveLabels store.sources config = .ok labels) :
    ∀ layout ∈ layoutLabels store.sources config labels,
      ∃ lineCount first last,
        store.sources.lineCount layout.file = some lineCount ∧
        ((layout.own labels).flatMap ResolvedLabel.endLines).min? = some first ∧
        ((layout.own labels).flatMap ResolvedLabel.endLines).max? = some last ∧
        (sourceLines layout.blocks).Pairwise (· < ·) ∧
        (∀ x, x ∈ sourceLines layout.blocks ↔
          (∃ l ∈ layout.own labels, x ∈ l.endLines ∨ l.Interior config x) ∨
          (max 1 (first - config.linesBefore) ≤ x ∧ x < first) ∨
          last < x ∧ x ≤ min lineCount (last + config.linesAfter)) ∧
        (∀ x ∈ sourceLines layout.blocks,
          (∃ range, store.sources.lineRange layout.file (x : Number) = some range) ∧
          (lineCount < x → store.sources.line layout.file (x : Number) = "" ∧
            ∃ l ∈ layout.own labels, x ∈ l.endLines)) ∧
        GapsMarked layout.blocks := by
  intro layout hl
  obtain ⟨l, member, rfl⟩ := Layout.mem_layoutLabels.mp hl
  let f := FileLabels.select store.sources config labels l.file
  have own : l ∈ f.labels := FileLabels.mem_select.mpr ⟨member, rfl⟩
  obtain ⟨file, known, _⟩ := Store.endLines_inside resolved member
  have counted : store.sources.lineCount l.file = some file.lineCount := by
    rw [Store.sources_lineCount, known, Option.map_some]
  have lineCount : f.lineCount = file.lineCount := by
    show ((store.sources.lineCount l.file).getD 0 : Nat) = _
    rw [counted]
    rfl
  obtain ⟨first, last, least, greatest⟩ := exists_extremes (List.ne_nil_of_mem own)
  have ordered : ∀ l ∈ f.labels, l.start.line ≤ l.stop.line := fun l hl =>
    Store.line_le_of_resolveLabels resolved l (FileLabels.mem_select.mp hl).1
  have selected := f.mem_shown_iff ordered least greatest
  rw [lineCount] at selected
  have inside : ∀ other ∈ f.labels, ∀ line ∈ other.endLines,
      1 ≤ line ∧ line ≤ 1 + file.source.toList.count '\n' := by
    intro other ho
    obtain ⟨member, same⟩ := FileLabels.mem_select.mp ho
    obtain ⟨_, here, lines⟩ := Store.endLines_inside resolved member
    rw [same, known] at here
    obtain rfl := Option.some.inj here
    exact lines
  have shown := f.shown_inside ordered (List.ne_nil_of_mem own)
    (lineCount ▸ file.lineCount_cases.imp_right And.left) inside
  rw [lineCount] at shown
  refine ⟨file.lineCount, first, last, counted, least, greatest, ?_⟩
  rw [f.sourceLines_layout]
  refine ⟨f.shown_sorted, selected, ?_, FileLabels.gapsMarked ?_⟩
  · intro x hx
    obtain ⟨pos, le, ends⟩ := shown x hx
    refine ⟨?_, ?_⟩
    · have ranged := (Store.lineRange_ne_none_iff known (x : Number)).mpr ⟨x, rfl, pos, le⟩
      exact Option.ne_none_iff_exists'.mp ranged
    · intro beyond
      exact ⟨Store.line_beyond_count known beyond le, ends.resolve_right (Nat.not_le_of_lt beyond)⟩
  · exact List.ne_nil_of_mem (f.start_mem_shown own)

/-- Of two labels, one of which is over three lines, the line in the middle is shown. -/
theorem shown_lines_exact_sample :
    Sample.diagnostic.resolveLabels Sample.store.sources .standard = .ok Sample.labels ∧
      Sample.fileLabels.layout ∈ layoutLabels Sample.store.sources .standard Sample.labels ∧
      2 ∈ sourceLines Sample.fileLabels.layout.blocks ∧
      GapsMarked Sample.fileLabels.layout.blocks := by
  obtain ⟨_, _, _, _, _, _, _, selected, _, marked⟩ :=
    shown_lines_exact Sample.resolved _ Sample.layout_mem
  have own : Sample.wholeFound ∈ Sample.fileLabels.layout.own Sample.labels :=
    List.mem_filter.mpr ⟨by simp [Sample.labels], rfl⟩
  have interior : Sample.wholeFound.Interior .standard 2 := ⟨by decide, by decide, by decide⟩
  have middle := (selected 2).mpr (.inl ⟨_, own, .inr interior⟩)
  exact ⟨Sample.resolved, Sample.layout_mem, middle, marked⟩

end Excerpt
