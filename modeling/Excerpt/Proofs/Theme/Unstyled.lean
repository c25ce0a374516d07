import Excerpt.Proofs.Replay
import Excerpt.Proofs.Report
import Excerpt.Proofs.Trimming

/-! Source text is shown without a style. It stands outside of all regions, behind the number
of its line and the connectors, so it has none on a device with colors; and without colors
nothing has one. -/
namespace Excerpt

/-! ## Cells without a style -/

theorem SameCells.eq_of_plain {cells : List Cell} {cs : List Char}
    (h : SameCells cells (cs.map (·, none))) : cells = cs.map (·, none) := by
  induction cs generalizing cells with
  | nil => cases h; rfl
  | cons c cs ih =>
    cases h with
    | cons own rest =>
      obtain ⟨letter, style⟩ := own
      rw [ih rest, List.map_cons]
      exact congrArg (· :: _) (Prod.ext letter (Option.map_eq_none_iff.mp style))

/-- Cells that are like some with a part without a style have that part at the same place. -/
theorem SameCells.exists_plain {cells front back : List Cell} {cs : List Char}
    (h : SameCells cells (front ++ cs.map (·, none) ++ back)) :
    ∃ before after, cells = before ++ cs.map (·, none) ++ after ∧
      before.map (·.1) = front.map (·.1) := by
  rw [List.append_assoc] at h
  have first : SameCells (cells.take front.length) front := List.forall₂_take_append _ _ _ h
  have rest := List.forall₂_drop_append _ _ _ h
  have own := SameCells.eq_of_plain (List.forall₂_take_append _ _ _ rest)
  refine ⟨_, (cells.drop front.length).drop (cs.map (·, (none : Option Style))).length, ?_,
    first.map_fst⟩
  calc cells = cells.take front.length ++ cells.drop front.length :=
        (List.take_append_drop _ _).symm
    _ = cells.take front.length ++
        ((cells.drop front.length).take (cs.map (·, (none : Option Style))).length ++
          (cells.drop front.length).drop (cs.map (·, (none : Option Style))).length) := by
        rw [List.take_append_drop (cs.map (·, (none : Option Style))).length]
    _ = _ := by rw [own, List.append_assoc]

namespace Document

theorem map_fst_cells (document : Document) : document.cells.map (·.1) = document.printed := by
  rw [printed, document.chars_runs]
  exact map_fst_cellsUnder none document

/-- Without colors nothing has a style. -/
theorem cells_replay_plain (document : Document) :
    (Screen.blank.replay (document.trace false)).cells = document.printed.map (·, none) := by
  have runs (shown : List Cell) (runs : List Run) :
      (Screen.mk none shown).replay (Trace.plain runs) =
        ⟨none, shown ++ (runs.flatMap fun run => run.text.chars).map (·, none)⟩ := by
    induction runs generalizing shown with
    | nil =>
      rw [List.flatMap_nil, List.map_nil, List.append_nil]
      rfl
    | cons run runs ih =>
      rw [List.flatMap_cons, List.map_append, ← List.append_assoc]
      exact ih _
  have whole := congrArg Screen.cells (runs [] (Run.coalesce document.runs))
  rw [List.nil_append, Run.chars_coalesce] at whole
  exact whole

/-- A part without a style is shown without one. -/
theorem exists_plain_of_cells {document : Document} {front back : List Cell} {cs : List Char}
    (h : document.cells = front ++ cs.map (·, none) ++ back) (color : Bool) :
    ∃ before after,
      (Screen.blank.replay (document.trace color)).cells =
        before ++ cs.map (·, none) ++ after ∧ before.map (·.1) = front.map (·.1) := by
  cases color with
  | true => exact SameCells.exists_plain (h ▸ document.replay_trace.1)
  | false =>
    refine ⟨(front.map (·.1)).map (·, none), (back.map (·.1)).map (·, none), ?_, ?_⟩
    · rw [cells_replay_plain, ← map_fst_cells, h]
      simp [Function.comp_def]
    · simp [Function.comp_def]

end Document

namespace Palette

variable (p : Palette)

/-- A report down to a block, without the block. -/
def aboveBlock (d : Diagnostic) (firsts : List (FileLayout Nat)) (layout : FileLayout Nat)
    (upper : List (Block Nat)) : Document :=
  p.report { d with notes := [] } (firsts ++ [{ layout with blocks := upper }])

theorem report_eq_aboveBlock (d : Diagnostic) (firsts lasts : List (FileLayout Nat))
    {layout : FileLayout Nat} {upper lower : List (Block Nat)} {block : SourceBlock Nat}
    (split : layout.blocks = upper ++ .source block :: lower) :
    ∃ below, p.report d (firsts ++ layout :: lasts) =
      p.aboveBlock d firsts layout upper ++ p.sourceRow layout.gutterWidth block ++ below := by
  have rows : p.block layout.gutterWidth (.source block) =
      p.sourceRow layout.gutterWidth block ++
        block.rows.flatMap (p.annotationRow layout.gutterWidth) := rfl
  have silent : p.notes (firsts ++ [{ layout with blocks := upper }]) [] = [] := rfl
  have own : p.file layout = p.file { layout with blocks := upper } ++
      (p.block layout.gutterWidth (.source block) ++
        lower.flatMap (p.block layout.gutterWidth)) := by
    rw [file, file, split, List.flatMap_append, List.flatMap_cons]
    simp only [List.append_assoc]
    rfl
  refine ⟨block.rows.flatMap (p.annotationRow layout.gutterWidth) ++
    (lower.flatMap (p.block layout.gutterWidth) ++ (lasts.flatMap p.file ++
      p.notes (firsts ++ layout :: lasts) d.notes)), ?_⟩
  rw [aboveBlock, report, report, silent, List.flatMap_append, List.flatMap_append,
    List.flatMap_cons, List.flatMap_cons, List.flatMap_nil, own, rows]
  simp only [List.append_assoc, List.append_nil]
  rfl

/-- The cells of a document leave the text of every source line of a report without a style,
behind what the report has above the line and in front of its text. -/
def LeavesSource (d : Diagnostic) (layouts : List (FileLayout Nat)) (cells : List Cell) : Prop :=
  ∀ firsts layout lasts upper block lower, layouts = firsts ++ layout :: lasts →
    layout.blocks = upper ++ .source block :: lower → block.text.chars ≠ [] →
    ∃ before after, cells = before ++ block.text.chars.map (·, none) ++ after ∧
      before.map (·.1) = Document.printed (p.aboveBlock d firsts layout upper) ++
        Segment.chars (p.sourcePrefix layout.gutterWidth block.line block.slots)

theorem sourceRow_of_text (width : Nat) {block : SourceBlock Nat} (filled : block.text.chars ≠ []) :
    p.sourceRow width block = Document.verbatimLine
      (p.sourcePrefix width block.line block.slots ++ [.plain block.text]) := by
  rw [sourceRow_eq, if_neg (mt (Strip.isEmpty_iff _).mp filled)]

theorem cells_sourceRow (width : Nat) {block : SourceBlock Nat} (filled : block.text.chars ≠ []) :
    Document.cells (p.sourceRow width block) =
      (p.sourcePrefix width block.line block.slots).flatMap Segment.cells ++
        block.text.chars.map (·, none) ++ [('\n', none)] := by
  rw [sourceRow_of_text p width filled, Document.cells_verbatimLine, List.flatMap_append,
    List.flatMap_singleton]
  rfl

/-- A report shows source text without a style, with colors and without. -/
theorem leavesSource_report (d : Diagnostic) (layouts : List (FileLayout Nat)) (color : Bool) :
    p.LeavesSource d layouts
      (Screen.blank.replay (Document.trace (p.report d layouts) color)).cells := by
  rintro firsts layout lasts upper block lower rfl split filled
  obtain ⟨below, parts⟩ := p.report_eq_aboveBlock d firsts lasts split
  have cells : Document.cells (p.report d (firsts ++ layout :: lasts)) =
      (Document.cells (p.aboveBlock d firsts layout upper) ++
        (p.sourcePrefix layout.gutterWidth block.line block.slots).flatMap Segment.cells) ++
      block.text.chars.map (·, none) ++ ([('\n', none)] ++ Document.cells below) := by
    rw [parts, Document.cells_append, Document.cells_append, p.cells_sourceRow _ filled]
    simp only [List.append_assoc]
  obtain ⟨before, after, shown, above⟩ := Document.exists_plain_of_cells cells color
  refine ⟨before, after, shown, above.trans ?_⟩
  rw [List.map_append, Document.map_fst_cells, Segment.map_fst_cells]

end Palette
end Excerpt
