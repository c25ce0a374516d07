import Excerpt.Proofs.Replay
import Excerpt.Proofs.Report

/-! How the parts of a report are styled. Every style in a report sets something, so no call
switches to a style that does not; and the text of a source line stands outside of all
regions, so it is shown without a style wherever the report is shown. -/
namespace Excerpt

/-! ## Styles that set something -/

/-- No style, or one that sets something. -/
def EffectiveStyle (style : Option Style) : Prop := ∀ s, style = some s → s.attributes ≠ []

theorem effectiveStyle_none : EffectiveStyle none := by
  intro s own
  cases own

theorem effectiveStyle_effective? (style : Style) : EffectiveStyle style.effective? := by
  intro s own
  unfold Style.effective? at own
  split at own
  · cases own
  · rename_i sets
    cases own
    exact sets

theorem effectiveStyle_bind (style : Option Style) :
    EffectiveStyle (style.bind Style.effective?) := by
  cases style with
  | none => exact effectiveStyle_none
  | some style => exact effectiveStyle_effective? style

theorem effectiveStyle_of_foreground {style : Style} {color : Color}
    (own : style.foreground = some color) : EffectiveStyle (some style) := by
  intro s same
  cases same
  rw [Style.attributes, own]
  exact List.cons_ne_nil (Attribute.foreground color) _

/-- A document whose regions with text all set something. -/
def Document.Effective (document : Document) : Prop :=
  ∀ run ∈ document.runs, EffectiveStyle run.style

namespace Segment

/-- Trimming makes no style. -/
theorem style_of_mem_trim {segments : List Segment} {s : Segment} (h : s ∈ trim segments) :
    ∃ t ∈ segments, s.style = t.style := by
  induction segments with
  | nil => cases h
  | cons t segments ih =>
    have later (inside : s ∈ trim segments) : ∃ u ∈ t :: segments, s.style = u.style := by
      obtain ⟨u, member, same⟩ := ih inside
      exact ⟨u, List.mem_cons_of_mem _ member, same⟩
    rw [trim] at h
    split at h
    · dsimp only at h
      split at h
      · cases h
      · rw [List.mem_singleton.mp h]
        exact ⟨t, List.mem_cons_self, rfl⟩
    · rcases List.mem_cons.mp h with rfl | inside
      · exact ⟨s, List.mem_cons_self, rfl⟩
      · exact later inside

theorem style_of_mem_runs {s : Segment} {run : Run} (h : run ∈ Document.runs [s.node]) :
    run.style = s.style := by
  unfold Segment.node at h
  cases own : s.style with
  | none =>
    rw [own] at h
    rw [List.mem_singleton.mp h]
  | some style =>
    have runs : Document.runs [.ofContent style [.text s.text]] =
        if s.text.isEmpty then [] else [⟨some style, s.text⟩] := by
      cases empty : s.text.isEmpty <;>
        simp [Document.runs, Document.runsUnder, Node.runsUnder, Node.ofContent,
          Document.ofContent, Content.nodesOfAll, Content.nodes, empty]
    rw [own] at h
    dsimp only at h
    rw [runs] at h
    split at h
    · cases h
    · rw [List.mem_singleton.mp h]

end Segment

namespace Document

theorem runs_append (a b : Document) : runs (a ++ b) = runs a ++ runs b := runsUnder_append none a b

theorem Effective.append {a b : Document} (ha : a.Effective) (hb : b.Effective) :
    Effective (a ++ b) := by
  intro run member
  rw [runs_append] at member
  rcases List.mem_append.mp member with left | right
  · exact ha run left
  · exact hb run right

theorem effective_nil : Effective [] := by
  intro run member
  cases member

theorem effective_flatMap {α : Type} {f : α → Document} {xs : List α}
    (each : ∀ x ∈ xs, Effective (f x)) : Effective (xs.flatMap f) := by
  induction xs with
  | nil => exact effective_nil
  | cons x xs ih =>
    obtain ⟨own, later⟩ := List.forall_mem_cons.mp each
    exact own.append (ih later)

theorem effective_verbatimLine {segments : List Segment}
    (each : ∀ s ∈ segments, EffectiveStyle s.style) : Effective (verbatimLine segments) := by
  have nodes : Effective (segments.map Segment.node) := by
    rw [List.map_eq_flatMap]
    apply effective_flatMap
    intro s member run inside
    rw [Segment.style_of_mem_runs inside]
    exact each s member
  apply nodes.append
  intro run feed
  rw [List.mem_singleton.mp feed]
  exact effectiveStyle_none

theorem effective_trimmedLine {segments : List Segment}
    (each : ∀ s ∈ segments, EffectiveStyle s.style) : Effective (trimmedLine segments) := by
  apply effective_verbatimLine
  intro s member
  obtain ⟨t, inside, same⟩ := Segment.style_of_mem_trim member
  exact same ▸ each t inside

end Document

namespace Palette

variable (p : Palette)

theorem effectiveStyle_gutter (text : Strip) : EffectiveStyle (p.gutter text).style :=
  effectiveStyle_effective? _

theorem effectiveStyle_label (style : LabelStyle) (role : Role) (text : Strip) :
    EffectiveStyle (p.label style role text).style :=
  effectiveStyle_of_foreground rfl

theorem effectiveStyle_connectors (slots : Slots) :
    ∀ s ∈ p.connectors slots, EffectiveStyle s.style := by
  intro s member
  unfold connectors at member
  split at member
  · cases member
  · rcases List.mem_append.mp member with cell | space
    · obtain ⟨slot, _, rfl⟩ := List.mem_map.mp cell
      cases slot with
      | none => exact effectiveStyle_none
      | some style => exact p.effectiveStyle_label style .pointer _
    · rw [List.mem_singleton.mp space]
      exact effectiveStyle_none

theorem effectiveStyle_itemsFrom (cursor : Nat) (items : List (RowItem Nat)) :
    ∀ s ∈ p.itemsFrom cursor items, EffectiveStyle s.style := by
  induction items generalizing cursor with
  | nil => simp [itemsFrom]
  | cons item items ih =>
    intro s member
    rw [itemsFrom_cons] at member
    rcases List.mem_append.mp member with space | member
    · unfold gap at space
      split at space
      · rw [List.mem_singleton.mp space]
        exact effectiveStyle_none
      · cases space
    · rcases List.mem_cons.mp member with rfl | later
      · exact p.effectiveStyle_label _ _ _
      · exact ih _ s later

/-- What is in front of a row behind its gutter. -/
theorem effectiveStyle_front (text : Strip) (slots : Slots) (rest : List Segment)
    (each : ∀ s ∈ rest, EffectiveStyle s.style) :
    ∀ s ∈ p.gutter text :: .plain " " :: (p.connectors slots ++ rest), EffectiveStyle s.style := by
  refine List.forall_mem_cons.mpr ⟨p.effectiveStyle_gutter text,
    List.forall_mem_cons.mpr ⟨effectiveStyle_none, ?_⟩⟩
  exact List.forall_mem_append.mpr ⟨p.effectiveStyle_connectors slots, each⟩

theorem effective_header (d : Diagnostic) : Document.Effective (p.header d) := by
  apply Document.effective_trimmedLine
  refine List.forall_mem_cons.mpr ⟨effectiveStyle_of_foreground rfl, ?_⟩
  simp [effectiveStyle_effective?]

theorem effective_blankGutter (width : Nat) : Document.Effective (p.blankGutter width) := by
  apply Document.effective_trimmedLine
  simp [effectiveStyle_gutter]

theorem effective_annotationRow (width : Nat) (row : AnnotationRow Nat) :
    Document.Effective (p.annotationRow width row) := by
  apply Document.effective_trimmedLine
  exact p.effectiveStyle_front _ _ _ (p.effectiveStyle_itemsFrom 1 row.items)

theorem effective_sourceRow (width : Nat) (block : SourceBlock Nat) :
    Document.Effective (p.sourceRow width block) := by
  have each := p.effectiveStyle_front (Text.padStart width (Decimal.digits block.line) ++ " |")
    block.slots [.plain block.text] (by simp [effectiveStyle_none, Segment.plain])
  rw [sourceRow_eq]
  split
  · exact Document.effective_trimmedLine each
  · exact Document.effective_verbatimLine each

theorem effective_block (width : Nat) (block : Block Nat) :
    Document.Effective (p.block width block) := by
  cases block with
  | elided slots =>
    have each := p.effectiveStyle_front (Text.spaces width ++ " :") slots [] (by simp)
    rw [List.append_nil] at each
    exact Document.effective_trimmedLine each
  | source block =>
    exact (p.effective_sourceRow width block).append
      (Document.effective_flatMap fun row _ => p.effective_annotationRow width row)

theorem effective_file (layout : FileLayout Nat) : Document.Effective (p.file layout) := by
  unfold Palette.file
  refine .append (.append ?_ (p.effective_blankGutter _))
    (Document.effective_flatMap fun block _ => p.effective_block _ block)
  apply Document.effective_trimmedLine
  simp [Segment.plain, effectiveStyle_none, effectiveStyle_gutter, effectiveStyle_bind]

theorem effective_note (width : Nat) (note : String) : Document.Effective (p.note width note) := by
  apply Document.effective_flatMap
  rintro ⟨part, index⟩ _
  apply Document.effective_trimmedLine
  refine List.forall_mem_cons.mpr ⟨?_, by
    simp [Segment.plain, effectiveStyle_none, effectiveStyle_bind]⟩
  split
  · exact p.effectiveStyle_gutter _
  · exact effectiveStyle_none

theorem effective_notes (layouts : List (FileLayout Nat)) (notes : List String) :
    Document.Effective (p.notes layouts notes) := by
  unfold Palette.notes
  dsimp only
  split
  · exact Document.effective_nil
  · refine .append ?_ (Document.effective_flatMap fun note _ => p.effective_note _ note)
    split
    · exact Document.effective_nil
    · exact p.effective_blankGutter _

theorem effective_report (d : Diagnostic) (layouts : List (FileLayout Nat)) :
    Document.Effective (p.report d layouts) := by
  have files : Document.Effective (layouts.flatMap p.file) :=
    Document.effective_flatMap fun layout _ => p.effective_file layout
  exact ((p.effective_header d).append files).append (p.effective_notes layouts d.notes)

end Palette

/-! ## Calls for effective styles -/

namespace Run

/-- Joining runs makes no style. -/
theorem style_of_mem_coalesce {runs : List Run} {run : Run} (h : run ∈ coalesce runs) :
    ∃ r ∈ runs, run.style = r.style := by
  induction runs generalizing run with
  | nil => cases h
  | cons first runs ih =>
    have later {other : Run} (inside : other ∈ coalesce runs) :
        ∃ r ∈ first :: runs, other.style = r.style := by
      obtain ⟨r, member, same⟩ := ih inside
      exact ⟨r, List.mem_cons_of_mem _ member, same⟩
    have own : ∃ r ∈ first :: runs, first.style = r.style := ⟨first, List.mem_cons_self, rfl⟩
    rw [coalesce] at h
    unfold joinFront at h
    split at h
    · exact later h
    · split at h
      · rename_i next rest joined
        rw [joined] at later
        split at h
        · rcases List.mem_cons.mp h with rfl | inside
          · exact own
          · exact later (List.mem_cons_of_mem _ inside)
        · rcases List.mem_cons.mp h with rfl | inside
          · exact own
          · exact later inside
      · rw [List.mem_singleton.mp h]
        exact own

end Run

namespace Trace

/-- A style that is switched to is that of some run. -/
theorem exists_run_of_setStyle {active : Option Style} {runs : List Run} {style : Style}
    (h : .setStyle style ∈ styledFrom active runs) : ∃ run ∈ runs, run.style = some style := by
  induction runs generalizing active with
  | nil => cases active <;> simp [styledFrom, reset] at h
  | cons run runs ih =>
    have later {active : Option Style} (inside : .setStyle style ∈ styledFrom active runs) :
        ∃ r ∈ run :: runs, r.style = some style := by
      obtain ⟨r, member, own⟩ := ih inside
      exact ⟨r, List.mem_cons_of_mem _ member, own⟩
    obtain ⟨_ | own, text⟩ := run
    · have inside : .setStyle style ∈ styledFrom none runs := by
        cases active <;> simpa [styledFrom, reset] using h
      exact later inside
    · rw [styledFrom] at h
      split at h
      · exact later (by simpa using h)
      · rcases List.mem_cons.mp h with switched | inside
        · cases switched
          exact ⟨_, List.mem_cons_self, rfl⟩
        · exact later (by simpa using inside)

end Trace

theorem Document.effective_trace {document : Document} (h : document.Effective) {color : Bool}
    {style : Style} (called : .setStyle style ∈ document.trace color) : style.attributes ≠ [] := by
  cases color with
  | false =>
    obtain ⟨_, _, silent⟩ := List.mem_map.mp called
    cases silent
  | true =>
    obtain ⟨run, joined, own⟩ := Trace.exists_run_of_setStyle called
    obtain ⟨r, member, same⟩ := Run.style_of_mem_coalesce joined
    exact h r member style (same.symm.trans own)

end Excerpt
