import Excerpt.Emit
import Excerpt.Proofs.Printed

/-! Reports open with a style. The first thing a report says is its severity, and that word is
always styled; so the calls for a report begin with a switch, whatever was active before. -/
namespace Excerpt

/-- The first of the joined runs has a style. -/
def Document.Opens (document : Document) : Prop :=
  ∃ style text rest, Run.coalesce document.runs = ⟨some style, text⟩ :: rest

theorem Run.coalesce_cons_of_filled {run : Run} (filled : run.text.chars ≠ [])
    (runs : List Run) : ∃ text rest, coalesce (run :: runs) = ⟨run.style, text⟩ :: rest := by
  rw [coalesce]
  unfold joinFront
  rw [if_neg (mt (Strip.isEmpty_iff _).mp filled)]
  cases coalesce runs with
  | nil => exact ⟨run.text, [], rfl⟩
  | cons next rest =>
    dsimp only
    split
    · exact ⟨_, rest, rfl⟩
    · exact ⟨run.text, next :: rest, rfl⟩

/-- Trimming leaves the style of a first segment that has a letter. -/
theorem Segment.trim_cons_of_letter {s : Segment} {c : Char} (inside : c ∈ s.text.chars)
    (letter : c ≠ ' ') (segments : List Segment) :
    ∃ text rest, trim (s :: segments) = ⟨s.style, text⟩ :: rest ∧ text.chars ≠ [] := by
  have solid : s.text.trimSpaces.chars ≠ [] := by
    rw [Strip.chars_trimSpaces]
    intro blank
    exact letter (beq_iff_eq.mp (List.rdropWhile_eq_nil_iff.mp blank c inside))
  rw [trim]
  split
  · dsimp only
    rw [if_neg (mt (Strip.isEmpty_iff _).mp solid)]
    exact ⟨_, [], rfl, solid⟩
  · exact ⟨s.text, _, rfl, List.ne_nil_of_mem inside⟩

/-- A line whose first segment has a letter opens with its style, and so does what follows. -/
theorem Document.opens_trimmedLine {s : Segment} {style : Style} (own : s.style = some style)
    {c : Char} (inside : c ∈ s.text.chars) (letter : c ≠ ' ') (segments : List Segment)
    (below : Document) : Opens (trimmedLine (s :: segments) ++ below) := by
  obtain ⟨text, rest, trimmed, filled⟩ := Segment.trim_cons_of_letter inside letter segments
  have first : Document.runs [Segment.node ⟨some style, text⟩] = [⟨some style, text⟩] := by
    have shown : text.isEmpty = false :=
      Bool.eq_false_iff.mpr (mt (Strip.isEmpty_iff text).mp filled)
    simp [Segment.node, runs, runsUnder, Node.runsUnder, Node.ofContent, ofContent,
      Content.nodesOfAll, Content.nodes, shown]
  have split : trimmedLine (s :: segments) ++ below =
      [Segment.node ⟨some style, text⟩] ++ (rest.map Segment.node ++ [.text "\n"] ++ below) := by
    rw [trimmedLine, verbatimLine, trimmed, own]
    rfl
  have word : (Run.mk (some style) text).text.chars ≠ [] := filled
  obtain ⟨joined, later, opened⟩ := Run.coalesce_cons_of_filled word
    (runs (rest.map Segment.node ++ [.text "\n"] ++ below))
  refine ⟨style, joined, later, ?_⟩
  rw [split, runs, runsUnder_append]
  unfold runs at first opened
  rw [first]
  exact opened

theorem Severity.exists_letter (s : Severity) : ∃ c ∈ s.name.toList, c ≠ ' ' := by
  have letters : s.name.toList.any (· != ' ') = true := by cases s <;> decide
  obtain ⟨c, inside, letter⟩ := List.any_eq_true.mp letters
  exact ⟨c, inside, by simpa using letter⟩

theorem Palette.opens_report (p : Palette) (d : Diagnostic) (layouts : List (FileLayout Nat)) :
    Document.Opens (p.report d layouts) := by
  obtain ⟨c, inside, letter⟩ := d.severity.exists_letter
  rw [report, header, List.append_assoc]
  refine Document.opens_trimmedLine rfl ?_ letter _ _
  rw [Strip.chars_ofString, heading, String.toList_append]
  exact List.mem_append_left _ inside

theorem Diagnostic.opens_document {sources : Sources} {options : Options} {d : Diagnostic}
    {document : Document} (h : d.document sources options = .ok document) : document.Opens := by
  unfold Diagnostic.document at h
  split at h
  · cases h
  · split at h
    · cases h
    · dsimp only at h
      split at h
      · cases h
      · cases h
        exact Palette.opens_report _ _ _

end Excerpt
