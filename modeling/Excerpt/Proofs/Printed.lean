import Excerpt.Proofs.Collected
import Excerpt.Segment
import Mathlib.Data.List.DropRight

/-! What is printed. A line prints the text of its segments, less the spaces it
ends in if it is trimmed; a document on a device without colors prints the text of
its nodes in order. -/
namespace Excerpt

theorem rdropWhile_append {α : Type} (p : α → Bool) (a b : List α) :
    (a ++ b).rdropWhile p =
      if b.rdropWhile p = [] then a.rdropWhile p else a ++ b.rdropWhile p := by
  simp only [List.rdropWhile, List.reverse_append, List.dropWhile_append,
    List.reverse_eq_nil_iff, List.isEmpty_iff]
  split <;> simp

namespace Segment

/-- The text of some segments. -/
def chars (segments : List Segment) : List Char := segments.flatMap fun s => s.text.chars

@[simp] theorem chars_nil : chars [] = [] := rfl

@[simp] theorem chars_cons (s : Segment) (segments : List Segment) :
    chars (s :: segments) = s.text.chars ++ chars segments := rfl

@[simp] theorem chars_append (a b : List Segment) : chars (a ++ b) = chars a ++ chars b :=
  List.flatMap_append

/-- Trimming leaves no segment that would be blank at the end. -/
theorem chars_trim_eq_nil {segments : List Segment} :
    chars (trim segments) = [] ↔ trim segments = [] := by
  refine ⟨fun blank => ?_, fun h => h ▸ rfl⟩
  induction segments with
  | nil => rfl
  | cons s segments ih =>
    rw [trim] at blank ⊢
    split at blank
    · dsimp only at blank ⊢
      split at blank
      · rename_i empty
        rw [if_pos empty]
      · rename_i text
        rw [Strip.isEmpty_iff] at text
        exact absurd (List.append_eq_nil_iff.mp blank).1 text
    · rename_i kept
      rw [chars_cons, List.append_eq_nil_iff] at blank
      exact absurd (ih blank.2) kept

theorem chars_trim (segments : List Segment) :
    chars (trim segments) = (chars segments).rdropWhile (· == ' ') := by
  induction segments with
  | nil => rfl
  | cons s segments ih =>
    have own : s.text.trimSpaces.chars = s.text.chars.rdropWhile (· == ' ') :=
      Strip.chars_trimSpaces s.text
    rw [chars_cons, rdropWhile_append, ← ih, trim]
    split
    · rename_i gone
      rw [gone, chars_nil, if_pos rfl, ← own]
      dsimp only
      split
      · rename_i empty
        rw [(Strip.isEmpty_iff _).mp empty, chars_nil]
      · rw [chars_cons, chars_nil, List.append_nil]
    · rename_i kept
      rw [if_neg (mt chars_trim_eq_nil.mp kept), chars_cons]

end Segment

namespace Document

/-- The text of a document, node after node. -/
def printed (document : Document) : List Char := document.runs.flatMap fun run => run.text.chars

@[simp] theorem printed_append (a b : Document) : printed (a ++ b) = printed a ++ printed b := by
  rw [printed, runs, runsUnder_append, List.flatMap_append]
  rfl

theorem printed_flatMap {α : Type} (f : α → Document) (xs : List α) :
    printed (xs.flatMap f) = xs.flatMap fun x => printed (f x) := by
  induction xs with
  | nil => rfl
  | cons x xs ih => rw [List.flatMap_cons, List.flatMap_cons, printed_append, ih]

theorem printed_node (s : Segment) : printed [s.node] = s.text.chars := by
  unfold Segment.node
  cases s.style with
  | none => simp [printed, runs, runsUnder, Node.runsUnder]
  | some style =>
    cases empty : s.text.isEmpty with
    | true =>
      simp [printed, runs, runsUnder, Node.runsUnder, Node.ofContent, ofContent,
        Content.nodesOfAll, Content.nodes, empty, (Strip.isEmpty_iff _).mp empty]
    | false =>
      simp [printed, runs, runsUnder, Node.runsUnder, Node.ofContent, ofContent,
        Content.nodesOfAll, Content.nodes, empty]

theorem printed_nodes (segments : List Segment) :
    printed (segments.map Segment.node) = Segment.chars segments := by
  induction segments with
  | nil => rfl
  | cons s segments ih =>
    rw [List.map_cons, ← List.singleton_append, printed_append, printed_node, ih]
    rfl

theorem printed_verbatimLine (segments : List Segment) :
    printed (verbatimLine segments) = Segment.chars segments ++ ['\n'] := by
  have feed : printed [.text "\n"] = ['\n'] := by
    simp [printed, runs, runsUnder, Node.runsUnder]
  rw [verbatimLine, printed_append, printed_nodes, feed]

theorem printed_trimmedLine (segments : List Segment) :
    printed (trimmedLine segments) = (Segment.chars segments).rdropWhile (· == ' ') ++ ['\n'] := by
  rw [trimmedLine, printed_verbatimLine, Segment.chars_trim]

end Document

/-! ## On a device without colors -/

/-- The plain text of a document, where there is a text that long, is what its
nodes print. -/
theorem Document.chars_plain {document : Document} {text : Strip}
    (h : document.plain = .ok text) : text.chars = document.printed := by
  have whole : document.paintedOn .none = text :=
    Strip.eq_of_fitting? ((document.onTerminal_eq .none).symm.trans h)
  rw [← whole, document.chars_paintedOn_none]
  exact document.chars_runs.symm

end Excerpt
