import Excerpt.Proofs.Layout.Blocks
import Mathlib.Data.List.Basic

/-! The gaps between the lines of a layout. An elided block is never first or last, and two
source blocks that follow each other have one between them exactly if lines are left out. -/
namespace Excerpt

/-- Gaps in the line numbers are marked, each by one elided block, and nothing else is. -/
structure GapsMarked (blocks : List (Block Nat)) : Prop where
  first : ∃ block, blocks.head? = some (.source block)
  last : ∃ block, blocks.getLast? = some (.source block)
  /-- Between two source blocks that follow each other. -/
  between : ∀ above a middle b below,
    blocks = above ++ .source a :: middle ++ .source b :: below → sourceBlocks middle = [] →
      b.line = a.line + 1 ∧ middle = [] ∨
        a.line + 1 < b.line ∧ ∃ slots, middle = [.elided slots]
  /-- No elided block is next to another one. -/
  alone : ∀ above a b below, blocks ≠ above ++ .elided a :: .elided b :: below

namespace Layout.FileLabels

variable {f : FileLabels Nat} {before : Option Nat} {lines : List Nat}
  {above rest : List (Block Nat)}

/-- Behind a source block come the blocks of the lines behind its line. -/
theorem blocks_behind_source {block : SourceBlock Nat}
    (h : f.blocksAfter before lines = above ++ .source block :: rest) :
    ∃ passed later, lines = passed ++ block.line :: later ∧
      rest = f.blocksAfter (some block.line) later := by
  induction lines generalizing before above with
  | nil => exact absurd h.symm (by simp [blocksAfter])
  | cons line lines ih =>
    -- The block is the one of the first line, or it is behind that.
    have step {more : List (Block Nat)}
        (h : .source (f.sourceBlock line) :: f.blocksAfter (some line) lines =
          more ++ .source block :: rest) :
        ∃ passed later, line :: lines = passed ++ block.line :: later ∧
          rest = f.blocksAfter (some block.line) later := by
      cases more with
      | nil =>
        obtain ⟨own, behind⟩ := List.cons.inj h
        obtain rfl := Block.source.inj own
        exact ⟨[], lines, rfl, behind.symm⟩
      | cons _ more =>
        obtain ⟨passed, later, rfl, behind⟩ := ih (List.cons.inj h).2
        exact ⟨line :: passed, later, rfl, behind⟩
    rcases f.blocksAfter_cons before line lines with ⟨_, next⟩ | ⟨_, _, _, next⟩
    · exact step (next ▸ h)
    · rw [next] at h
      cases above with
      | nil => exact absurd (List.cons.inj h).1 (by simp)
      | cons _ above => exact step (List.cons.inj h).2

/-- Behind an elided block comes a source block. -/
theorem source_behind_elided {slots : Slots}
    (h : f.blocksAfter before lines = above ++ .elided slots :: rest) :
    ∃ block more, rest = .source block :: more := by
  induction lines generalizing before above with
  | nil => exact absurd h.symm (by simp [blocksAfter])
  | cons line lines ih =>
    have step {more : List (Block Nat)}
        (h : .source (f.sourceBlock line) :: f.blocksAfter (some line) lines =
          more ++ .elided slots :: rest) : ∃ block more, rest = .source block :: more := by
      cases more with
      | nil => exact absurd (List.cons.inj h).1 (by simp)
      | cons _ more => exact ih (List.cons.inj h).2
    rcases f.blocksAfter_cons before line lines with ⟨_, next⟩ | ⟨_, _, _, next⟩
    · exact step (next ▸ h)
    · rw [next] at h
      cases above with
      | nil => exact ⟨_, _, (List.cons.inj h).2.symm⟩
      | cons _ above => exact step (List.cons.inj h).2

/-- What is between a source block and the next one tells whether lines are left out. -/
theorem between_of_sorted {above middle below : List (Block Nat)} {a b : SourceBlock Nat}
    (sorted : lines.Pairwise (· < ·))
    (h : f.blocksAfter before lines = above ++ .source a :: middle ++ .source b :: below)
    (free : sourceBlocks middle = []) :
    b.line = a.line + 1 ∧ middle = [] ∨
      a.line + 1 < b.line ∧ ∃ slots, middle = [.elided slots] := by
  rw [List.append_assoc, List.cons_append] at h
  obtain ⟨passed, later, rfl, behind⟩ := blocks_behind_source h
  cases later with
  | nil => exact absurd behind (by simp [blocksAfter])
  | cons line later =>
    have grows : a.line < line :=
      (List.pairwise_cons.mp (List.pairwise_append.mp sorted).2.1).1 line (by simp)
    -- Blocks without a source block in front of the one of the next line are in front of it.
    have next {more : List (Block Nat)} (free : sourceBlocks more = [])
        (h : more ++ .source b :: below =
          .source (f.sourceBlock line) :: f.blocksAfter (some line) later) :
        more = [] ∧ b.line = line := by
      cases more with
      | nil =>
        obtain rfl := Block.source.inj (List.cons.inj h).1
        exact ⟨rfl, rfl⟩
      | cons _ more =>
        obtain ⟨rfl, _⟩ := List.cons.inj h
        exact absurd free (by simp [sourceBlocks, Block.source?])
    rcases f.blocksAfter_cons (some a.line) line later with ⟨le, eq⟩ | ⟨_, ⟨⟩, apart, eq⟩
    · obtain ⟨rfl, rfl⟩ := next free (behind.trans eq)
      have le := le _ rfl
      exact .inl ⟨by omega, rfl⟩
    · rw [eq] at behind
      cases middle with
      | nil => exact absurd (List.cons.inj behind).1 (by simp)
      | cons _ middle =>
        obtain ⟨rfl, tail⟩ := List.cons.inj behind
        have others : sourceBlocks middle = [] := free
        obtain ⟨rfl, rfl⟩ := next others tail
        exact .inr ⟨apart, _, rfl⟩

theorem gapsMarked (shown : f.shown ≠ []) : GapsMarked f.layout.blocks where
  first := by
    obtain ⟨line, lines, eq⟩ := List.exists_cons_of_ne_nil shown
    exact ⟨f.sourceBlock line, by rw [layout, eq]; rfl⟩
  last := by
    obtain ⟨line, lines, eq⟩ := List.exists_cons_of_ne_nil shown
    have filled : f.layout.blocks ≠ [] := by rw [layout, eq]; exact List.cons_ne_nil _ _
    obtain ⟨above, block, split⟩ := (List.eq_nil_or_concat' f.layout.blocks).resolve_left filled
    cases block with
    | source block => exact ⟨block, by rw [split, List.getLast?_concat]⟩
    | elided slots =>
      obtain ⟨_, _, more⟩ := source_behind_elided split
      cases more
  between := fun _ _ _ _ _ split free => between_of_sorted f.shown_sorted split free
  alone := by
    intro above a b below split
    obtain ⟨_, _, next⟩ := source_behind_elided split
    cases next

end Layout.FileLabels
end Excerpt
