import Excerpt.Proofs.Source.Line
import Mathlib.Data.List.DropRight

/-! Fronts of a file. The offsets that have a position are the lengths in bytes of the
fronts of the text, and the position of such an offset follows from the front alone:
its line from the line feeds, and its column from the text behind the last of them. -/
namespace Excerpt

open SourceFile (byteLength LineSplit)

/-- The characters behind the last line feed of a text. -/
def lastLine (text : List Char) : List Char := text.rtakeWhile (· != '\n')

theorem lastLine_append {a b : List Char} (free : '\n' ∉ b) :
    lastLine (a ++ b) = lastLine a ++ b := by
  induction b using List.reverseRecOn with
  | nil => simp
  | append_singleton b c ih =>
    rw [List.mem_append, List.mem_singleton, not_or] at free
    have other : (c != '\n') = true := bne_iff_ne.mpr (Ne.symm free.2)
    have longer : lastLine (a ++ b ++ [c]) = lastLine (a ++ b) ++ [c] :=
      List.rtakeWhile_concat_pos (· != '\n') _ c other
    rw [← List.append_assoc, longer, ih free.1, List.append_assoc]

theorem lastLine_concat_feed (text : List Char) : lastLine (text ++ ['\n']) = [] :=
  List.rtakeWhile_concat_neg _ _ _ (by simp)

/-- The location behind a front of a text. -/
theorem ByteLocation.foldl_next (before : List Char) :
    before.foldl next ⟨1, 0⟩ = ⟨1 + before.count '\n', byteLength (lastLine before)⟩ := by
  induction before using List.reverseRecOn with
  | nil => rfl
  | append_singleton front c ih =>
    rw [List.foldl_concat, ih, next, List.count_append]
    split
    · rename_i feed
      rw [feed, lastLine_concat_feed]
      rfl
    · rename_i other
      have free : '\n' ∉ [c] := by simpa using Ne.symm other
      rw [lastLine_append free, SourceFile.byteLength_append, List.count_eq_zero_of_not_mem free]
      rfl

namespace SourceFile

theorem length_splitOn_feed (cs : List Char) : (cs.splitOn '\n').length = cs.count '\n' + 1 := by
  induction cs with
  | nil => rfl
  | cons c cs ih =>
    rw [List.splitOn_cons_eq_if_modifyHead, List.count_cons]
    split
    · rw [List.length_cons, ih]
    · rw [List.length_modifyHead, ih, Nat.add_zero]

theorem length_lines (file : SourceFile) :
    file.lines.length = file.source.toList.count '\n' + 1 :=
  length_splitOn_feed _

/-- A front of a text ends on a line of it. -/
theorem count_lt_length_lines {file : SourceFile} {before : List Char}
    (hf : before <+: file.source.toList) : before.count '\n' < file.lines.length := by
  rw [length_lines]
  exact Nat.lt_succ_of_le (hf.sublist.count_le '\n')

theorem exists_lineRange {file : SourceFile} {before : List Char}
    (hf : before <+: file.source.toList) :
    ∃ range, file.lineRange (1 + before.count '\n') = some range := by
  rw [Nat.add_comm, lineRange, List.getElem?_eq_getElem (count_lt_length_lines hf)]
  exact ⟨_, rfl⟩

/-- In front of the last line of a front stands what comes before the line in the file. -/
theorem LineSplit.front_eq {file : SourceFile} {front before text after : List Char}
    (h : LineSplit file (1 + front.count '\n') before text after)
    (hf : front <+: file.source.toList) : front = before ++ lastLine front := by
  have start := h.start
  rw [ByteLocation.foldl_next, ByteLocation.mk.injEq] at start
  obtain ⟨lines, column⟩ := start
  have closed : lastLine before = [] := eq_nil_of_byteLength column
  have hb : before <+: file.source.toList := by
    rw [h.source, List.append_assoc]
    exact List.prefix_append _ _
  rcases List.prefix_or_prefix_of_prefix hb hf with ⟨rest, rfl⟩ | ⟨rest, rfl⟩
  · rw [List.count_append] at lines
    have free : '\n' ∉ rest := List.count_eq_zero.mp (by omega)
    rw [lastLine_append free, closed, List.nil_append]
  · rw [List.count_append] at lines
    have free : '\n' ∉ rest := List.count_eq_zero.mp (by omega)
    rw [lastLine_append free, List.append_eq_nil_iff] at closed
    rw [closed.1, closed.2, List.append_nil, List.append_nil]

/-- Offsets at which no character is cut. -/
def HasBoundary (file : SourceFile) (offset : Number) : Prop :=
  ∃ before, before <+: file.source.toList ∧ offset = (byteLength before : Number)

theorem location_eq_none_iff {file : SourceFile} {offset : Number} :
    offset.toNat?.bind file.location = none ↔ ¬file.HasBoundary offset := by
  rw [← not_iff_not, not_not, ← ne_eq, Option.ne_none_iff_exists']
  constructor
  · rintro ⟨location, found⟩
    obtain ⟨n, whole, found⟩ := Option.bind_eq_some_iff.mp found
    obtain ⟨before, hf, rfl, _⟩ := locate_eq_some_iff.mp found
    exact ⟨before, hf, Number.toNat?_eq_some_iff.mp whole⟩
  · rintro ⟨before, hf, rfl⟩
    rw [Number.toNat?_natCast, Option.bind_some]
    exact ⟨_, locate_eq_some_iff.mpr ⟨before, hf, rfl, rfl⟩⟩

/-! ## Lines of a file -/

/-- The lines in front of a line, with their line feeds. -/
def front (file : SourceFile) (index : Nat) : List Char :=
  (file.lines.take index).flatMap fun text => text ++ ['\n']

variable {file : SourceFile} {index : Nat} {line : List Char}

theorem front_succ (found : file.lines[index]? = some line) :
    file.front (index + 1) = file.front index ++ (line ++ ['\n']) := by
  rw [front, List.take_add_one, found, List.flatMap_append]
  exact congrArg (file.front index ++ ·) (List.append_nil _)

/-- The last line reaches up to the end of the text. -/
theorem source_of_last_line (found : file.lines[index]? = some line)
    (last : file.lines.length = index + 1) : file.source.toList = file.front index ++ line := by
  have joined (lines : List (List Char)) (line : List Char) :
      ['\n'].intercalate (lines ++ [line]) =
        (lines.flatMap fun text => text ++ ['\n']) ++ line := by
    induction lines with
    | nil => simp [List.intercalate]
    | cons first lines ih =>
      rw [List.flatMap_cons, List.append_assoc, ← ih]
      cases lines <;> simp [List.intercalate]
  have lines : file.lines = file.lines.take index ++ [line] := by
    have whole := List.take_add_one (l := file.lines) (i := index)
    rwa [found, List.take_of_length_le (Nat.le_of_eq last)] at whole
  calc file.source.toList
      = ['\n'].intercalate file.lines := (List.intercalate_splitOn '\n').symm
    _ = ['\n'].intercalate (file.lines.take index ++ [line]) := by rw [← lines]
    _ = file.front index ++ line := joined _ _

/-- Behind the last line of a file stands nothing, and behind the others a line feed. -/
theorem split_at_line (found : file.lines[index]? = some line) :
    ∃ after, LineSplit file (index + 1) (file.front index) line after ∧
      (index + 1 < file.lines.length ∧ (∃ rest, after = '\n' :: rest) ∨
        file.lines.length = index + 1 ∧ after = []) := by
  have inside := (List.getElem?_eq_some_iff.mp found).1
  have free := mem_lines_free (List.mem_of_getElem? found)
  have start : (file.front index).foldl ByteLocation.next ⟨1, 0⟩ = ⟨index + 1, 0⟩ := by
    have before : ∀ text ∈ file.lines.take index, '\n' ∉ text := fun text ht =>
      mem_lines_free (List.mem_of_mem_take ht)
    rw [front, ByteLocation.foldl_next_lines before, List.length_take,
      Nat.min_eq_left (Nat.le_of_lt inside), Nat.add_comm]
  by_cases more : index + 1 < file.lines.length
  · obtain ⟨rest, eq⟩ := prefix_of_lines (List.getElem?_eq_getElem more)
    have source : file.source.toList =
        file.front index ++ line ++ '\n' :: (file.lines[index + 1] ++ rest) := by
      have own : file.front (index + 1) ++ file.lines[index + 1] ++ rest = file.source.toList := eq
      rw [← own, front_succ found]
      simp only [List.append_assoc, List.cons_append, List.nil_append]
    exact ⟨_, ⟨source, free, start⟩, .inl ⟨more, _, rfl⟩⟩
  · have last : file.lines.length = index + 1 := by omega
    have source : file.source.toList = file.front index ++ line ++ [] := by
      rw [List.append_nil, source_of_last_line found last]
    exact ⟨[], ⟨source, free, start⟩, .inr ⟨last, rfl⟩⟩

theorem exists_last_line (file : SourceFile) :
    ∃ index line, file.lines.length = index + 1 ∧ file.lines[index]? = some line := by
  have filled : 0 < file.lines.length := List.length_pos_iff.mpr (List.splitOn_ne_nil _ _)
  exact ⟨file.lines.length - 1, _, by omega, List.getElem?_eq_getElem (by omega)⟩

/-- A text ends in a line feed where its last line is empty, but the text is not. -/
theorem getLast?_eq_feed_iff (found : file.lines[index]? = some line)
    (last : file.lines.length = index + 1) :
    file.source.toList.getLast? = some '\n' ↔ line = [] ∧ file.source.toList ≠ [] := by
  have free := mem_lines_free (List.mem_of_getElem? found)
  rw [source_of_last_line found last]
  rcases List.eq_nil_or_concat' line with rfl | ⟨text, c, rfl⟩
  · rw [List.append_nil]
    cases index with
    | zero => simp [front]
    | succ index =>
      have above := List.getElem?_eq_getElem (show index < file.lines.length by omega)
      rw [front_succ above, ← List.append_assoc, List.getLast?_concat]
      simp
  · have other : c ≠ '\n' := by
      rintro rfl
      exact free (List.mem_append_right _ List.mem_cons_self)
    rw [← List.append_assoc, List.getLast?_concat]
    simp [other]

theorem count_front (inside : index ≤ file.lines.length) :
    (file.front index).count '\n' = index := by
  induction index with
  | zero => rfl
  | succ index ih =>
    have found := List.getElem?_eq_getElem (show index < file.lines.length by omega)
    have free := mem_lines_free (List.mem_of_getElem? found)
    rw [front_succ found, List.count_append, List.count_append, ih (by omega),
      List.count_eq_zero_of_not_mem free, List.count_singleton_self]

theorem front_isPrefix (inside : index < file.lines.length) :
    file.front index <+: file.source.toList := by
  obtain ⟨after, split, _⟩ := split_at_line (List.getElem?_eq_getElem inside)
  rw [split.source, List.append_assoc]
  exact List.prefix_append _ _

/-- A line starts within a front of a text where as many line feeds are. -/
theorem byteLength_front_le_iff {before : List Char} (hf : before <+: file.source.toList)
    (inside : index < file.lines.length) :
    byteLength (file.front index) ≤ byteLength before ↔ index ≤ before.count '\n' := by
  have own := front_isPrefix inside
  constructor
  · intro shorter
    have counts := (prefix_of_byteLength_le own hf shorter).sublist.count_le '\n'
    rwa [count_front (Nat.le_of_lt inside)] at counts
  · intro counts
    by_contra longer
    have above := prefix_of_byteLength_le hf own (by omega)
    cases index with
    | zero => exact longer (Nat.zero_le _)
    | succ index =>
      -- A front that is not the whole ends in front of the line feed.
      have found := List.getElem?_eq_getElem (Nat.lt_of_succ_lt inside)
      have free := mem_lines_free (List.mem_of_getElem? found)
      rw [front_succ found, ← List.append_assoc] at above longer
      rcases List.prefix_concat_iff.mp above with whole | within
      · rw [whole] at longer
        exact longer (Nat.le_refl _)
      · have fewer := within.sublist.count_le '\n'
        rw [List.count_append, count_front (by omega), List.count_eq_zero_of_not_mem free] at fewer
        omega

end SourceFile
end Excerpt
