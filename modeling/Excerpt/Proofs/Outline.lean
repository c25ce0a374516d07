import Excerpt.Document.Outline
import Excerpt.Proofs.Collected
import Excerpt.Proofs.Naming
import Excerpt.Proofs.Replay
import Excerpt.Proofs.Text.Quoted
import Mathlib.Data.List.Forall2

/-! Outlines tell trees apart. Each node of a document takes one line, which says how deep
the node is and what it is; the lines in order are those of one tree only, up to how styles
are written. -/
namespace Excerpt

/-- The same tree with the same texts, under styles that set the same. -/
inductive Node.Alike : Node → Node → Prop
  | text (value : Strip) : Node.Alike (.text value) (.text value)
  | styled {style other : Style} {children others : List Node} (same : style.Alike other)
      (inside : List.Forall₂ Node.Alike children others) :
      Node.Alike (.styled style children) (.styled other others)

/-! ## The lines of an outline -/

mutual

/-- The nodes of a tree from top to bottom, each with its depth. -/
def Node.placesFrom (depth : Nat) : Node → List (Nat × Node)
  | .text value => [(depth, .text value)]
  | .styled style children =>
    (depth, .styled style children) :: Document.placesFrom (depth + 1) children

def Document.placesFrom (depth : Nat) : List Node → List (Nat × Node)
  | [] => []
  | node :: nodes => Node.placesFrom depth node ++ Document.placesFrom depth nodes

end

/-- What the line of a node says. -/
def Node.entry : Node → Strip
  | .text value => Quoted.quote value
  | .styled style _ => .ofString ("styled \x7b" ++ style.toText ++ "\x7d")

/-- The line of a node at some depth. -/
def Node.lineAt (place : Nat × Node) : Strip := indent place.1 ++ place.2.entry

mutual

theorem Node.outlineAt_eq (depth : Nat) (node : Node) :
    Node.outlineAt depth node = (Node.placesFrom depth node).map Node.lineAt := by
  cases node with
  | text value => rfl
  | styled style children =>
    exact congrArg (_ :: ·) (Document.outlineAt_eq (depth + 1) children)

theorem Document.outlineAt_eq (depth : Nat) (nodes : List Node) :
    Document.outlineAt depth nodes = (Document.placesFrom depth nodes).map Node.lineAt := by
  cases nodes with
  | nil => rfl
  | cons node nodes =>
    rw [Document.outlineAt, Document.placesFrom, List.map_append, Node.outlineAt_eq,
      Document.outlineAt_eq]

end

theorem chars_indent (depth : Nat) : (indent depth).chars = List.replicate (2 * depth) ' ' :=
  Strip.chars_repeated _ _

namespace Node

theorem chars_entry_styled (style : Style) (children : List Node) :
    (Node.styled style children).entry.chars =
      "styled \x7b".toList ++ style.toText.toList ++ ['\x7d'] := by
  rw [entry, Strip.chars_ofString, String.toList_append, String.toList_append]
  rfl

/-- An entry starts with a character that is no space. -/
theorem exists_entry (node : Node) : ∃ c cs, node.entry.chars = c :: cs ∧ c ≠ ' ' := by
  cases node with
  | text value => exact ⟨'"', _, Quoted.chars_quote value, by decide⟩
  | styled style children => exact ⟨'s', _, chars_entry_styled style children, by decide⟩

theorem feed_not_mem_entry (node : Node) : '\n' ∉ node.entry.chars := by
  cases node with
  | text value => exact Quoted.feed_not_mem_quote value
  | styled style children =>
    rw [chars_entry_styled, List.mem_append, List.mem_append]
    rintro ((word | named) | brace)
    · exact absurd word (by decide)
    · exact absurd (Style.isLower_of_mem_toText named) (by decide)
    · exact absurd brace (by decide)

/-- No node takes more than its line, whatever its text. -/
theorem lineAt_plain (place : Nat × Node) :
    (lineAt place).chars ≠ [] ∧ '\n' ∉ (lineAt place).chars := by
  rw [lineAt, Strip.chars_append, chars_indent]
  constructor
  · obtain ⟨c, cs, own, _⟩ := place.2.exists_entry
    rw [own]
    exact List.append_ne_nil_of_right_ne_nil _ (List.cons_ne_nil c cs)
  · rw [List.mem_append]
    rintro (space | inside)
    · exact absurd (List.eq_of_mem_replicate space) (by decide)
    · exact place.2.feed_not_mem_entry inside

/-- A line says how deep its node is, and what it is. -/
theorem lineAt_inj {depth depth' : Nat} {x y : Node} (h : lineAt (depth, x) = lineAt (depth', y)) :
    depth = depth' ∧ x.entry = y.entry := by
  obtain ⟨c, cs, hx, plain⟩ := x.exists_entry
  obtain ⟨d, ds, hy, plain'⟩ := y.exists_entry
  have blanks (count : Nat) {c : Char} (cs : List Char) (plain : c ≠ ' ') :
      (List.replicate count ' ' ++ c :: cs).takeWhile (· == ' ') = List.replicate count ' ' := by
    rw [List.takeWhile_append_of_pos fun d own => by simp [List.eq_of_mem_replicate own],
      List.takeWhile_cons_of_neg (by simpa using plain), List.append_nil]
  have chars := congrArg Strip.chars h
  rw [lineAt, lineAt, Strip.chars_append, Strip.chars_append, chars_indent, chars_indent, hx, hy]
    at chars
  have front := congrArg (List.takeWhile (· == ' ')) chars
  rw [blanks _ cs plain, blanks _ ds plain'] at front
  have same : 2 * depth = 2 * depth' := by simpa using congrArg List.length front
  refine ⟨by omega, Strip.ext_chars ?_⟩
  rw [hx, hy]
  rw [same] at chars
  exact List.append_cancel_left chars

theorem text_of_entry {value other : Strip}
    (h : (Node.text value).entry = (Node.text other).entry) : value = other :=
  Quoted.quote_injective h

theorem entry_apart {value : Strip} {style : Style} {children : List Node}
    (h : (Node.text value).entry = (Node.styled style children).entry) : False := by
  have chars := congrArg Strip.chars h
  rw [entry, Quoted.chars_quote, chars_entry_styled] at chars
  cases chars

theorem style_of_entry {style other : Style} {children others : List Node}
    (h : (Node.styled style children).entry = (Node.styled other others).entry) :
    style.Alike other := by
  have chars := congrArg Strip.chars h
  rw [chars_entry_styled, chars_entry_styled, List.append_left_inj, List.append_right_inj] at chars
  exact Style.toText_eq_iff.mp (String.toList_injective chars)

end Node

/-! ## Trees from lines -/

/-- How deep a node is, and what its line says. -/
def Node.told (place : Nat × Node) : Nat × Strip := (place.1, place.2.entry)

/-- The first of some lines is less deep. -/
def Above (depth : Nat) (lines : List (Nat × Strip)) : Prop := ∀ line ∈ lines.head?, line.1 < depth

theorem Above.mono {depth depth' : Nat} {lines : List (Nat × Strip)} (h : Above depth lines)
    (le : depth ≤ depth') : Above depth' lines :=
  fun line first => (h line first).trans_le le

theorem Node.exists_placesFrom (depth : Nat) (node : Node) :
    ∃ places, Node.placesFrom depth node = (depth, node) :: places := by
  cases node with
  | text value => exact ⟨[], rfl⟩
  | styled style children => exact ⟨_, rfl⟩

/-- The lines of nodes, and what follows them, start at the depth of the nodes or above. -/
theorem Above.places {depth : Nat} {lines : List (Nat × Strip)} (h : Above depth lines)
    (nodes : List Node) :
    Above (depth + 1) ((Document.placesFrom depth nodes).map Node.told ++ lines) := by
  cases nodes with
  | nil => exact h.mono (Nat.le_succ depth)
  | cons node nodes =>
    obtain ⟨places, first⟩ := node.exists_placesFrom depth
    rw [Document.placesFrom, first]
    rintro line own
    cases own
    exact Nat.lt_succ_self depth

/-- Where nodes are left there is a line at their depth. -/
theorem Above.ne_places {depth : Nat} {lines others : List (Nat × Strip)} (h : Above depth lines)
    (node : Node) (nodes : List Node) :
    lines ≠ (Document.placesFrom depth (node :: nodes)).map Node.told ++ others := by
  obtain ⟨places, first⟩ := node.exists_placesFrom depth
  rintro rfl
  rw [Document.placesFrom, first] at h
  exact absurd (h _ rfl) (Nat.lt_irrefl depth)

mutual

/-- The lines of a node are told apart from what follows, which is not below the node. -/
theorem Node.alike_of_places {depth : Nat} {x y : Node} {rest rest' : List (Nat × Strip)}
    (above : Above (depth + 1) rest) (above' : Above (depth + 1) rest')
    (h : (Node.placesFrom depth x).map Node.told ++ rest =
      (Node.placesFrom depth y).map Node.told ++ rest') : x.Alike y ∧ rest = rest' := by
  cases x with
  | text value =>
    cases y with
    | text other =>
      obtain ⟨own, later⟩ := List.cons.inj h
      obtain rfl := Node.text_of_entry (Prod.mk.inj own).2
      exact ⟨.text value, later⟩
    | styled style children => exact (Node.entry_apart (Prod.mk.inj (List.cons.inj h).1).2).elim
  | styled style children =>
    cases y with
    | text value => exact (Node.entry_apart (Prod.mk.inj (List.cons.inj h).1).2.symm).elim
    | styled other others =>
      obtain ⟨own, later⟩ := List.cons.inj h
      obtain ⟨inside, behind⟩ := Document.alike_of_places above above' later
      exact ⟨.styled (Node.style_of_entry (Prod.mk.inj own).2) inside, behind⟩

theorem Document.alike_of_places {depth : Nat} {a b : List Node} {rest rest' : List (Nat × Strip)}
    (above : Above depth rest) (above' : Above depth rest')
    (h : (Document.placesFrom depth a).map Node.told ++ rest =
      (Document.placesFrom depth b).map Node.told ++ rest') :
    List.Forall₂ Node.Alike a b ∧ rest = rest' := by
  cases a with
  | nil =>
    cases b with
    | nil => exact ⟨.nil, h⟩
    | cons y b => exact absurd h (above.ne_places y b)
  | cons x a =>
    cases b with
    | nil => exact absurd h.symm (above'.ne_places x a)
    | cons y b =>
      rw [Document.placesFrom, Document.placesFrom, List.map_append, List.map_append,
        List.append_assoc, List.append_assoc] at h
      obtain ⟨first, later⟩ := Node.alike_of_places (above.places a) (above'.places b) h
      obtain ⟨others, behind⟩ := Document.alike_of_places above above' later
      exact ⟨.cons first others, behind⟩

end

mutual

/-- Trees that are alike have the same lines. -/
theorem Node.Alike.told {x y : Node} (h : x.Alike y) (depth : Nat) :
    (Node.placesFrom depth x).map Node.told = (Node.placesFrom depth y).map Node.told := by
  cases h with
  | text value => rfl
  | @styled style other children others same inside =>
    have entry : (Node.styled style children).entry = (Node.styled other others).entry := by
      rw [Node.entry, Node.entry, Style.toText_eq_iff.mpr same]
    rw [Node.placesFrom, Node.placesFrom, List.map_cons, List.map_cons, Node.told, Node.told, entry,
      Document.told_of_alike inside (depth + 1)]

theorem Document.told_of_alike {a b : List Node} (h : List.Forall₂ Node.Alike a b) (depth : Nat) :
    (Document.placesFrom depth a).map Node.told = (Document.placesFrom depth b).map Node.told := by
  cases h with
  | nil => rfl
  | cons own rest =>
    rw [Document.placesFrom, Document.placesFrom, List.map_append, List.map_append,
      Node.Alike.told own, Document.told_of_alike rest]

end

/-! ## Outlines -/

namespace Document

/-- The outline of a document, however long it is. -/
def outlined (document : Document) : Strip :=
  .join ((outlineAt 0 document).intersperse (.ofString "\n"))

/-- What the lines of a document are written as. -/
def lines (document : Document) : List (List Char) :=
  (placesFrom 0 document).map fun place => (Node.lineAt place).chars

theorem chars_outlined (document : Document) :
    document.outlined.chars = ['\n'].intercalate document.lines := by
  have joined (lines : List Strip) : (lines.intersperse (.ofString "\n")).flatMap Strip.chars =
      ['\n'].intercalate (lines.map Strip.chars) := by
    induction lines with
    | nil => rfl
    | cons line lines ih =>
      cases lines with
      | nil => simp
      | cons next lines =>
        rw [List.intersperse_cons_cons, List.flatMap_cons, List.flatMap_cons, ih]
        simp [List.intercalate_cons_cons]
  rw [outlined, Strip.chars_join, joined, outlineAt_eq, List.map_map]
  rfl

theorem lines_plain (document : Document) : ∀ line ∈ document.lines, line ≠ [] ∧ '\n' ∉ line := by
  intro line own
  obtain ⟨place, _, rfl⟩ := List.mem_map.mp own
  exact Node.lineAt_plain place

theorem lines_eq_nil_iff {document : Document} : document.lines = [] ↔ document = [] := by
  rw [lines, List.map_eq_nil_iff]
  cases document with
  | nil => simp [placesFrom]
  | cons node nodes =>
    obtain ⟨places, first⟩ := node.exists_placesFrom 0
    simp [placesFrom, first]

/-- An outline can be cut into its lines again. -/
theorem splitOn_outlined {document : Document} (filled : document ≠ []) :
    document.outlined.chars.splitOn '\n' = document.lines := by
  rw [chars_outlined]
  exact List.splitOn_intercalate '\n' (fun line own => (document.lines_plain line own).2)
    (mt lines_eq_nil_iff.mp filled)

theorem outlined_eq_iff {a b : Document} :
    a.outlined = b.outlined ↔ List.Forall₂ Node.Alike a b := by
  constructor
  · intro h
    have chars := congrArg Strip.chars h
    rw [chars_outlined, chars_outlined] at chars
    have lines := Text.eq_of_intercalate_eq a.lines_plain b.lines_plain chars
    have told : (placesFrom 0 a).map Node.told = (placesFrom 0 b).map Node.told := by
      rw [Document.lines, Document.lines, ← List.forall₂_eq_eq_eq, List.forall₂_map_left_iff,
        List.forall₂_map_right_iff] at lines
      rw [← List.forall₂_eq_eq_eq, List.forall₂_map_left_iff, List.forall₂_map_right_iff]
      refine lines.imp fun x y same => ?_
      obtain ⟨depth, entry⟩ := Node.lineAt_inj (Strip.ext_chars same)
      exact Prod.ext depth entry
    have top : Above 0 [] := by simp [Above]
    refine (alike_of_places top top ?_).1
    rw [told]
  · intro h
    have told := told_of_alike h 0
    have each (document : Document) : outlineAt 0 document =
        ((placesFrom 0 document).map Node.told).map fun line => indent line.1 ++ line.2 := by
      rw [outlineAt_eq, List.map_map]
      rfl
    rw [outlined, outlined, each, each, told]

end Document

/-- An outline tells a document. There is one unless it is too long for a text. Another
document has the same outline exactly when it is the same tree, node for node and up to what
styles set. The outline is empty for the empty document only; that of any other has one line
for each node, from top to bottom, whatever the texts of the nodes are. -/
theorem outline_tells_tree (a b : Document) :
    ((∃ text, a.outline = .ok text) ↔ a.outlined.units ≤ Text.longest) ∧
    (∀ fault, a.outline = .error fault → fault = .tooLong) ∧
    ∀ text, a.outline = .ok text →
      (b.outline = .ok text ↔ List.Forall₂ Node.Alike a b) ∧
      (text = .empty ↔ a = []) ∧
      (a ≠ [] → text.chars.splitOn '\n' =
        (Document.placesFrom 0 a).map fun place => (Node.lineAt place).chars) := by
  have outline_iff (document : Document) (text : Strip) : document.outline = .ok text ↔
      document.outlined = text ∧ document.outlined.units ≤ Text.longest :=
    Strip.fitting?_eq_ok_iff
  refine ⟨?fits, ?fault, fun text outline => ?tells⟩
  case fits => exact Strip.exists_fitting?_iff
  case fault =>
    intro fault failed
    exact (Strip.fitting?_eq_error_iff.mp failed).1
  case tells =>
    obtain ⟨rfl, short⟩ := (outline_iff a text).mp outline
    refine ⟨?_, ?_, Document.splitOn_outlined⟩
    · rw [outline_iff, ← Document.outlined_eq_iff]
      constructor
      · exact fun same => same.1.symm
      · intro same
        rw [← same]
        exact ⟨rfl, short⟩
    · have empty : Document.outlined [] = .empty := rfl
      rw [← empty, Document.outlined_eq_iff, List.forall₂_nil_right_iff]

namespace Sample

/-- Nodes without text, and a text that looks like a line of an outline. -/
def nested (style : Style) : Document :=
  [.styled style [.text "\n  styled \x7b\x7d\"", .styled .empty []], .text ""]

/-- A text within the longest that is too long once it is quoted. -/
def fullText : Document := [.text (.repeated Text.longest 'a')]

end Sample

theorem outline_tells_tree_sample :
    (Sample.nested Sample.bold).outline =
        .ok "styled \x7bbold\x7d\n  \"\\n  styled \x7b\x7d\\\"\"\n  styled \x7b\x7d\n\"\"" ∧
      (Sample.nested Sample.alsoBold).outline = (Sample.nested Sample.bold).outline ∧
      List.Forall₂ Node.Alike (Sample.nested Sample.bold) (Sample.nested Sample.alsoBold) := by
  have outline : (Sample.nested Sample.bold).outline =
      .ok "styled \x7bbold\x7d\n  \"\\n  styled \x7b\x7d\\\"\"\n  styled \x7b\x7d\n\"\"" := by
    decide +kernel
  have same : (Sample.nested Sample.alsoBold).outline = (Sample.nested Sample.bold).outline := by
    decide +kernel
  obtain ⟨alike_iff, _⟩ :=
    (outline_tells_tree (Sample.nested Sample.bold) (Sample.nested Sample.alsoBold)).2.2 _ outline
  exact ⟨outline, same, alike_iff.mp (same.trans outline)⟩

/-- The same tree twice, and no outline to say so. -/
theorem long_outline_refused :
    List.Forall₂ Node.Alike Sample.fullText Sample.fullText ∧
      Sample.fullText.outline = .error .tooLong :=
  ⟨.cons (.text _) .nil, by decide +kernel⟩

end Excerpt
