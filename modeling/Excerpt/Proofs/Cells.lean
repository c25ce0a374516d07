import Excerpt.Run
import Mathlib.Data.List.Forall2

/-! The cells of a document: its characters in order, each with the style of the nearest
region around it. Reading a document as joined runs keeps every character, and every
style up to what it sets. -/
namespace Excerpt

/-- A character and the style it has, if any. -/
abbrev Cell := Char × Option Style

mutual

/-- The text nodes of a node, in order. -/
def Node.texts : Node → List Strip
  | .text value => [value]
  | .styled _ children => Node.textsOfAll children

def Node.textsOfAll : List Node → List Strip
  | [] => []
  | node :: nodes => Node.texts node ++ Node.textsOfAll nodes

end

def Document.texts (document : Document) : List Strip := Node.textsOfAll document

mutual

/-- The cells of a node that stands under a style. -/
def Node.cellsUnder (style : Option Style) : Node → List Cell
  | .text value => value.chars.map (·, style)
  | .styled inner children => Document.cellsUnder (some inner) children

def Document.cellsUnder (style : Option Style) : List Node → List Cell
  | [] => []
  | node :: nodes => Node.cellsUnder style node ++ Document.cellsUnder style nodes

end

/-- Outside of all regions there is no style. -/
def Document.cells (document : Document) : List Cell := Document.cellsUnder none document

theorem Run.map_fst_cells (run : Run) : run.cells.map (·.1) = run.text.chars := by
  rw [cells, List.map_map]
  exact List.map_id _

mutual

theorem Node.map_fst_cellsUnder (style : Option Style) (node : Node) :
    (Node.cellsUnder style node).map (·.1) = (Node.texts node).flatMap Strip.chars := by
  cases node with
  | text value => exact (Run.map_fst_cells ⟨style, value⟩).trans (List.append_nil _).symm
  | styled inner children => exact Document.map_fst_cellsUnder (some inner) children

theorem Document.map_fst_cellsUnder (style : Option Style) (nodes : List Node) :
    (Document.cellsUnder style nodes).map (·.1) = (Node.textsOfAll nodes).flatMap Strip.chars := by
  cases nodes with
  | nil => rfl
  | cons node nodes =>
    rw [Document.cellsUnder, Node.textsOfAll, List.map_append, List.flatMap_append,
      Node.map_fst_cellsUnder, Document.map_fst_cellsUnder]

end

mutual

theorem Node.flatMap_cells_runsUnder (style : Option Style) (node : Node) :
    (Node.runsUnder style node).flatMap Run.cells = Node.cellsUnder style node := by
  cases node with
  | text value => exact List.append_nil _
  | styled inner children => exact Document.flatMap_cells_runsUnder (some inner) children

theorem Document.flatMap_cells_runsUnder (style : Option Style) (nodes : List Node) :
    (Document.runsUnder style nodes).flatMap Run.cells = Document.cellsUnder style nodes := by
  cases nodes with
  | nil => rfl
  | cons node nodes =>
    rw [Document.runsUnder, Document.cellsUnder, List.flatMap_append,
      Node.flatMap_cells_runsUnder, Document.flatMap_cells_runsUnder]

end

theorem Run.map_fst_flatMap_cells (runs : List Run) :
    (runs.flatMap cells).map (·.1) = runs.flatMap fun run => run.text.chars := by
  rw [List.map_flatMap]
  exact List.flatMap_congr fun run _ => run.map_fst_cells

/-- The runs of a document have the characters of its text nodes. -/
theorem Document.chars_runs (document : Document) :
    (document.runs.flatMap fun run => run.text.chars) = document.texts.flatMap Strip.chars := by
  have own : document.runs.flatMap Run.cells = Document.cellsUnder none document :=
    Document.flatMap_cells_runsUnder none document
  rw [← Run.map_fst_flatMap_cells, own]
  exact map_fst_cellsUnder none document

/-! ## Cells that are alike -/

/-- The same characters, under styles that set the same. -/
def SameCells : List Cell → List Cell → Prop :=
  List.Forall₂ fun a b => a.1 = b.1 ∧ SameStyle a.2 b.2

namespace SameCells

theorem refl (cells : List Cell) : SameCells cells cells :=
  List.forall₂_same.mpr fun _ _ => ⟨rfl, .refl _⟩

theorem trans {a b c : List Cell} (h : SameCells a b) (h' : SameCells b c) : SameCells a c := by
  induction h generalizing c with
  | nil => exact h'
  | cons same _ ih =>
    cases h' with
    | cons same' rest => exact .cons ⟨same.1.trans same'.1, same.2.trans same'.2⟩ (ih rest)

theorem append {a b c d : List Cell} (h : SameCells a b) (h' : SameCells c d) :
    SameCells (a ++ c) (b ++ d) :=
  List.rel_append h h'

theorem restyle {a b : Option Style} (h : SameStyle a b) (cs : List Char) :
    SameCells (cs.map (·, a)) (cs.map (·, b)) := by
  induction cs with
  | nil => exact .nil
  | cons c cs ih => exact .cons ⟨rfl, h⟩ ih

theorem map_fst {a b : List Cell} (h : SameCells a b) : a.map (·.1) = b.map (·.1) := by
  induction h with
  | nil => rfl
  | cons same _ ih => rw [List.map_cons, List.map_cons, same.1, ih]

end SameCells

/-! ## Joined runs -/

namespace Run

theorem sameCells_joinFront (run : Run) (joined : List Run) :
    SameCells ((joinFront run joined).flatMap cells) (run.cells ++ joined.flatMap cells) := by
  unfold joinFront
  split
  · rename_i empty
    have none_shown : run.cells = [] := by rw [cells, (Strip.isEmpty_iff _).mp empty, List.map_nil]
    rw [none_shown]
    exact .refl _
  · cases joined with
    | nil => exact .refl _
    | cons next rest =>
      dsimp only
      split
      · -- The text that is joined takes the form of the style in front of it.
        rename_i same
        rw [List.flatMap_cons, List.flatMap_cons, ← List.append_assoc]
        refine .append ?_ (.refl _)
        rw [cells, Strip.chars_append, List.map_append]
        exact .append (.refl _) (.restyle same _)
      · exact .refl _

theorem sameCells_coalesce (runs : List Run) :
    SameCells ((coalesce runs).flatMap cells) (runs.flatMap cells) := by
  induction runs with
  | nil => exact .refl _
  | cons run runs ih =>
    exact (sameCells_joinFront run (coalesce runs)).trans (.append (.refl _) ih)

theorem chars_coalesce (runs : List Run) :
    ((coalesce runs).flatMap fun run => run.text.chars) =
      runs.flatMap fun run => run.text.chars := by
  rw [← map_fst_flatMap_cells, ← map_fst_flatMap_cells]
  exact (sameCells_coalesce runs).map_fst

theorem filled_coalesce (runs : List Run) : ∀ run ∈ coalesce runs, run.text.chars ≠ [] := by
  induction runs with
  | nil => simp [coalesce]
  | cons run runs ih =>
    rw [coalesce]
    unfold joinFront
    split
    · exact ih
    · rename_i filled
      rw [Strip.isEmpty_iff] at filled
      split
      · rename_i next rest eq
        rw [eq, List.forall_mem_cons] at ih
        split
        · refine List.forall_mem_cons.mpr ⟨?_, ih.2⟩
          rw [Strip.chars_append]
          exact fun none_left => filled (List.append_eq_nil_iff.mp none_left).1
        · exact List.forall_mem_cons.mpr ⟨filled, List.forall_mem_cons.mpr ih⟩
      · exact List.forall_mem_cons.mpr ⟨filled, by simp⟩

/-- Neighbouring runs that are joined differ in style. -/
theorem differ_coalesce (runs : List Run) :
    (coalesce runs).IsChain fun a b => ¬SameStyle a.style b.style := by
  induction runs with
  | nil => exact .nil
  | cons run runs ih =>
    rw [coalesce]
    unfold joinFront
    split
    · exact ih
    · split
      · rename_i next rest eq
        rw [eq] at ih
        split
        · rename_i same
          cases rest with
          | nil => exact .singleton _
          | cons later rest =>
            rw [List.isChain_cons_cons] at ih ⊢
            exact ⟨fun again => ih.1 (same.symm.trans again), ih.2⟩
        · rename_i other
          exact List.isChain_cons_cons.mpr ⟨other, ih⟩
      · exact .singleton _

end Run

/-- The joined runs of a document have its cells. -/
theorem Document.sameCells_coalesce (document : Document) :
    SameCells ((Run.coalesce document.runs).flatMap Run.cells) document.cells := by
  have own : document.runs.flatMap Run.cells = document.cells :=
    Document.flatMap_cells_runsUnder none document
  exact own ▸ Run.sameCells_coalesce document.runs

end Excerpt
