import Excerpt.Proofs.Cells
import Excerpt.Proofs.Printed

/-! What trimming takes off a line: the spaces it ends in, over as many segments as they reach,
and nothing else. What is left keeps the styles of its segments. -/
namespace Excerpt

namespace Segment

/-- The characters of a segment, with its style. -/
def cells (s : Segment) : List Cell := s.text.chars.map (·, s.style)

theorem map_fst_cells (segments : List Segment) :
    (segments.flatMap cells).map (·.1) = chars segments := by
  induction segments with
  | nil => rfl
  | cons s segments ih =>
    rw [List.flatMap_cons, List.map_append, ih]
    exact congrArg (· ++ _) (Run.map_fst_cells ⟨s.style, s.text⟩)

/-- A segment that trimming leaves keeps all that is in front of it. -/
theorem trim_append (front back : List Segment) :
    trim (front ++ back) = if trim back = [] then trim front else front ++ trim back := by
  induction front with
  | nil =>
    by_cases gone : trim back = []
    · rw [if_pos gone]
      exact gone
    · rw [if_neg gone]
      rfl
  | cons s front ih =>
    rw [List.cons_append, trim, ih]
    by_cases gone : trim back = []
    · rw [if_pos gone, if_pos gone, trim]
    · rw [if_neg gone, if_neg gone]
      split
      · rename_i none_left
        exact absurd (List.append_eq_nil_iff.mp none_left).2 gone
      · rfl

theorem trim_eq_nil_iff {segments : List Segment} :
    trim segments = [] ↔ ∀ c ∈ chars segments, c = ' ' := by
  rw [← chars_trim_eq_nil, chars_trim, List.rdropWhile_eq_nil_iff]
  simp only [beq_iff_eq]

/-- The last segment of a line, trimmed. -/
theorem flatMap_cells_trim_singleton (s : Segment) :
    (trim [s]).flatMap cells = s.cells.rdropWhile (·.1 == ' ') := by
  have own : s.cells.rdropWhile (·.1 == ' ') =
      (s.text.chars.rdropWhile (· == ' ')).map (·, s.style) := by
    rw [cells, List.rdropWhile, List.rdropWhile, ← List.map_reverse, List.dropWhile_map,
      List.map_reverse]
    rfl
  have text : s.text.trimSpaces.chars = s.text.chars.rdropWhile (· == ' ') :=
    Strip.chars_trimSpaces s.text
  rw [own, ← text, trim, trim]
  dsimp only
  by_cases blank : s.text.trimSpaces.isEmpty
  · rw [if_pos blank, (Strip.isEmpty_iff _).mp blank]
    rfl
  · rw [if_neg blank]
    exact List.append_nil _

/-- Trimming takes the spaces at the end, segment after segment from the last one on. -/
theorem flatMap_cells_trim (segments : List Segment) :
    (trim segments).flatMap cells = (segments.flatMap cells).rdropWhile (·.1 == ' ') := by
  induction segments using List.reverseRecOn with
  | nil => rfl
  | append_singleton front s ih =>
    rw [trim_append, List.flatMap_append, List.flatMap_singleton, rdropWhile_append,
      ← flatMap_cells_trim_singleton]
    by_cases gone : trim [s] = []
    · rw [if_pos gone, gone, List.flatMap_nil, if_pos rfl, ih]
    · have left : (trim [s]).flatMap cells ≠ [] := by
        intro none_left
        apply gone
        rw [← chars_trim_eq_nil, ← map_fst_cells, none_left]
        rfl
      rw [if_neg gone, if_neg left, List.flatMap_append]

end Segment

namespace Document

theorem cells_append (a b : Document) : cells (a ++ b) = cells a ++ cells b := by
  induction a with
  | nil => rfl
  | cons node nodes ih =>
    show Node.cellsUnder none node ++ cells (nodes ++ b) = _
    rw [ih, ← List.append_assoc]
    rfl

theorem cellsUnder_text (style : Option Style) (text : Strip) :
    cellsUnder style [.text text] = text.chars.map (·, style) := List.append_nil _

theorem cells_node (s : Segment) : cells [s.node] = s.cells := by
  obtain ⟨style, text⟩ := s
  cases style with
  | none => exact cellsUnder_text none text
  | some style =>
    have region : cells [.ofContent style [.text text]] =
        cellsUnder (some style) (ofContent [.text text]) := List.append_nil _
    have content : ofContent [.text text] = (if text.isEmpty then [] else [.text text]) :=
      List.append_nil _
    show cells [.ofContent style [.text text]] = _
    rw [region, content, Segment.cells]
    by_cases empty : text.isEmpty
    · rw [if_pos empty, (Strip.isEmpty_iff text).mp empty]
      rfl
    · rw [if_neg empty, cellsUnder_text]

theorem cells_nodes (segments : List Segment) :
    cells (segments.map Segment.node) = segments.flatMap Segment.cells := by
  induction segments with
  | nil => rfl
  | cons s segments ih =>
    rw [List.map_cons, ← List.singleton_append, cells_append, cells_node, ih, List.flatMap_cons]

theorem cells_verbatimLine (segments : List Segment) :
    cells (verbatimLine segments) = segments.flatMap Segment.cells ++ [('\n', none)] := by
  have feed : cells [.text "\n"] = [('\n', none)] := by
    simp [cells, cellsUnder, Node.cellsUnder]
  rw [verbatimLine, cells_append, cells_nodes, feed]

/-- A trimmed line has the characters of its segments with their styles, less the spaces at the
end, and an unstyled line feed; one that is not trimmed has them all. In front of any character
that is not a space the segments are as they were, whether they are blank or not. -/
theorem trimmed_line_exact (segments : List Segment) :
    (∃ kept blanks : List Cell, segments.flatMap Segment.cells = kept ++ blanks ∧
      (∀ cell ∈ blanks, cell.1 = ' ') ∧ (∀ last ∈ kept.getLast?, last.1 ≠ ' ') ∧
      (trimmedLine segments).cells = kept ++ [('\n', none)]) ∧
    (verbatimLine segments).cells = segments.flatMap Segment.cells ++ [('\n', none)] ∧
    ∀ front back, segments = front ++ back → (∃ c ∈ Segment.chars back, c ≠ ' ') →
      trimmedLine segments = front.map Segment.node ++ trimmedLine back := by
  refine ⟨⟨(segments.flatMap Segment.cells).rdropWhile (·.1 == ' '),
    (segments.flatMap Segment.cells).rtakeWhile (·.1 == ' '), ?parts, ?blanks, ?last, ?trimmed⟩,
    cells_verbatimLine segments, ?inside⟩
  case parts => exact List.rdropWhile_append_rtakeWhile.symm
  case blanks =>
    intro cell member
    have space : (cell.1 == ' ') = true :=
      @List.mem_rtakeWhile_imp _ (fun cell : Cell => cell.1 == ' ') _ _ member
    exact beq_iff_eq.mp space
  case last =>
    intro last member
    obtain ⟨filled, rfl⟩ := List.mem_getLast?_eq_getLast member
    exact mt beq_iff_eq.mpr (List.rdropWhile_last_not _ _ filled)
  case trimmed => rw [trimmedLine, cells_verbatimLine, Segment.flatMap_cells_trim]
  case inside =>
    rintro front back rfl ⟨c, member, solid⟩
    have left : Segment.trim back ≠ [] := by
      intro gone
      apply solid
      exact Segment.trim_eq_nil_iff.mp gone c member
    rw [trimmedLine, trimmedLine, Segment.trim_append, if_neg left, verbatimLine, verbatimLine,
      List.map_append, List.append_assoc]

/-- A blank segment is kept in front of a marker, whose own space goes with the one behind it. -/
theorem trimmed_line_exact_sample :
    let marker : Segment := ⟨some { Style.empty with bold := some true }, "^^ "⟩
    (∃ c ∈ Segment.chars [marker, .plain " "], c ≠ ' ') ∧
    trimmedLine [.plain "1 |", .plain "  ", marker, .plain " "] =
      [Segment.plain "1 |", .plain "  "].map Segment.node ++ trimmedLine [marker, .plain " "] := by
  intro marker
  have solid : ∃ c ∈ Segment.chars [marker, .plain " "], c ≠ ' ' := ⟨'^', by decide, by decide⟩
  exact ⟨solid, (trimmed_line_exact _).2.2 [.plain "1 |", .plain "  "] _ rfl solid⟩

end Document
end Excerpt
