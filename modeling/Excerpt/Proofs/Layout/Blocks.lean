import Excerpt.Proofs.Layout.Shown
import Excerpt.Proofs.Sorting

/-! The files of a layout and their blocks. Each file has the labels that point
into it, and one source block for each line that is shown. -/
namespace Excerpt

section

variable {α : Type}

namespace Block

def source? : Block α → Option (SourceBlock α)
  | source block => some block
  | elided _ => none

def slots : Block α → Slots
  | source block => block.slots
  | elided slots => slots

end Block

def sourceBlocks (blocks : List (Block α)) : List (SourceBlock α) :=
  blocks.filterMap Block.source?

def sourceLines (blocks : List (Block α)) : List α := (sourceBlocks blocks).map (·.line)

theorem mem_sourceBlocks {block : SourceBlock α} {blocks : List (Block α)} :
    block ∈ sourceBlocks blocks ↔ .source block ∈ blocks := by
  rw [sourceBlocks, List.mem_filterMap]
  constructor
  · rintro ⟨found, member, eq⟩
    cases found with
    | source other => exact Option.some.inj eq ▸ member
    | elided _ => cases eq
  · intro member
    exact ⟨_, member, rfl⟩

/-- The files that some labels point into, in order of their first labels. -/
def filesOf (labels : List (ResolvedLabel α)) : List Number := (labels.map (·.file)).eraseDups

/-- The labels that point into a file, in their order. -/
def labelsOf (file : Number) (labels : List (ResolvedLabel α)) : List (ResolvedLabel α) :=
  labels.filter fun l => l.file == file

theorem mem_filesOf {file : Number} {labels : List (ResolvedLabel α)} :
    file ∈ filesOf labels ↔ ∃ l ∈ labels, l.file = file := by
  rw [filesOf, List.mem_eraseDups, List.mem_map]

theorem mem_filesOf_iff {file : Number} {labels : List (ResolvedLabel α)} :
    file ∈ filesOf labels ↔ labelsOf file labels ≠ [] := by
  simp only [mem_filesOf, labelsOf, ne_eq, List.filter_eq_nil_iff, beq_iff_eq, not_forall, not_not,
    exists_prop]

theorem nodup_filesOf (labels : List (ResolvedLabel α)) : (filesOf labels).Nodup :=
  nodup_eraseDups _

theorem filesOf_cons (l : ResolvedLabel α) (labels : List (ResolvedLabel α)) :
    filesOf (l :: labels) =
      l.file :: filesOf (labels.filter fun other => other.file != l.file) := by
  rw [filesOf, List.map_cons, List.eraseDups_cons, List.filter_map]
  rfl

/-- Labels that do not point into another file are those of the file they are from. -/
theorem labelsOf_others {file other : Number} (apart : other ≠ file)
    (labels : List (ResolvedLabel α)) :
    labelsOf other (labels.filter fun l => l.file != file) = labelsOf other labels := by
  rw [labelsOf, List.filter_filter]
  apply List.filter_congr
  intro l _
  by_cases here : l.file = other
  · simp [here, apart]
  · simp [here]

theorem labelsOf_labelsOf (file : Number) (labels : List (ResolvedLabel α)) :
    labelsOf file (labelsOf file labels) = labelsOf file labels := by
  simp only [labelsOf, List.filter_filter, Bool.and_self]

theorem filesOf_labelsOf {file : Number} {labels : List (ResolvedLabel α)}
    (member : file ∈ filesOf labels) : filesOf (labelsOf file labels) = [file] := by
  obtain ⟨l, hl, rfl⟩ := mem_filesOf.mp member
  have inside : l ∈ labelsOf l.file labels := List.mem_filter.mpr ⟨hl, beq_self_eq_true _⟩
  cases own : labelsOf l.file labels with
  | nil =>
    rw [own] at inside
    cases inside
  | cons first rest =>
    have same : ∀ other ∈ first :: rest, other.file = l.file := by
      intro other ho
      rw [← own] at ho
      exact beq_iff_eq.mp (List.mem_filter.mp ho).2
    have none_else : (rest.filter fun other => other.file != first.file) = [] := by
      apply List.filter_eq_nil_iff.mpr
      intro other ho
      simp [same other (List.mem_cons_of_mem first ho), same first List.mem_cons_self]
    rw [filesOf_cons, none_else, same first List.mem_cons_self]
    rfl

theorem groupByFile_eq (labels : List (ResolvedLabel α)) :
    groupByFile labels = (filesOf labels).map fun file => (file, labelsOf file labels) := by
  fun_induction groupByFile labels with
  | case1 => rfl
  | case2 first labels ih =>
    simp only [List.unattach_filter, List.unattach_attach] at ih
    have own : labelsOf first.file (first :: labels) =
        first :: labels.filter fun other => other.file == first.file :=
      List.filter_cons_of_pos (beq_self_eq_true _)
    rw [ih, filesOf_cons, List.map_cons, own]
    congr 1
    apply List.map_congr_left
    intro file member
    obtain ⟨l, kept, rfl⟩ := mem_filesOf.mp member
    have apart : l.file ≠ first.file := bne_iff_ne.mp (List.mem_filter.mp kept).2
    have behind : labelsOf l.file (first :: labels) = labelsOf l.file labels :=
      List.filter_cons_of_neg (by simpa using apart.symm)
    rw [labelsOf_others apart, behind]

theorem mem_groupByFile {file : Number} {group labels : List (ResolvedLabel α)} :
    (file, group) ∈ groupByFile labels ↔
      (∃ l ∈ labels, l.file = file) ∧ group = labels.filter fun l => l.file == file := by
  simp only [groupByFile_eq, List.mem_map, Prod.mk.injEq, ← mem_filesOf]
  constructor
  · rintro ⟨_, member, rfl, rfl⟩
    exact ⟨member, rfl⟩
  · rintro ⟨member, rfl⟩
    exact ⟨file, member, rfl, rfl⟩

end

theorem nodup_groupByFile (labels : List (ResolvedLabel Nat)) :
    ((groupByFile labels).map (·.1)).Nodup := by
  rw [groupByFile_eq, List.map_map]
  exact (List.map_id _).symm ▸ nodup_filesOf labels

/-- The labels that point into the file of a layout. -/
def FileLayout.own (layout : FileLayout Nat) (labels : List (ResolvedLabel Nat)) :
    List (ResolvedLabel Nat) :=
  labels.filter fun l => l.file == layout.file

namespace Layout

section

variable {α : Type} [LT α] [DecidableLT α] [LE α] [DecidableLE α] [DecidableEq α] [NatCast α]

/-- The labels that point into a file, with all that its layout needs. -/
def FileLabels.select (sources : Sources) (config : Config) (labels : List (ResolvedLabel α))
    (file : Number) : FileLabels α :=
  let own := labels.filter fun l => l.file == file
  ⟨sources, config, file, own, connectors own⟩

theorem FileLabels.mem_select {sources : Sources} {config : Config}
    {labels : List (ResolvedLabel α)} {file : Number} {l : ResolvedLabel α} :
    l ∈ (select sources config labels file).labels ↔ l ∈ labels ∧ l.file = file := by
  rw [select, List.mem_filter, beq_iff_eq]

theorem FileLabels.nodup_select {labels : List (ResolvedLabel α)}
    (distinct : (labels.map (·.order)).Nodup) (sources : Sources) (config : Config)
    (file : Number) : ((select sources config labels file).labels.map (·.order)).Nodup :=
  distinct.sublist (List.filter_sublist.map _)

theorem mem_fileLabels {sources : Sources} {config : Config} {labels : List (ResolvedLabel α)}
    {f : FileLabels α} :
    f ∈ fileLabels sources config labels ↔
      ∃ l ∈ labels, f = FileLabels.select sources config labels l.file := by
  simp only [fileLabels, List.mem_map, Prod.exists, mem_groupByFile]
  constructor
  · rintro ⟨_, _, ⟨⟨l, member, rfl⟩, rfl⟩, rfl⟩
    exact ⟨l, member, rfl⟩
  · rintro ⟨l, member, rfl⟩
    exact ⟨_, _, ⟨⟨l, member, rfl⟩, rfl⟩, rfl⟩

variable [Add α] [Sub α] [Mod α] [Max α] [Min α] [OfNat α 0] [OfNat α 1] [Coordinate α]

theorem mem_layoutLabels {sources : Sources} {config : Config}
    {labels : List (ResolvedLabel α)} {layout : FileLayout α} :
    layout ∈ layoutLabels sources config labels ↔
      ∃ l ∈ labels, layout = (FileLabels.select sources config labels l.file).layout := by
  rw [layoutLabels, List.mem_map]
  constructor
  · rintro ⟨f, member, rfl⟩
    obtain ⟨l, own, rfl⟩ := mem_fileLabels.mp member
    exact ⟨l, own, rfl⟩
  · rintro ⟨l, own, rfl⟩
    exact ⟨_, mem_fileLabels.mpr ⟨l, own, rfl⟩, rfl⟩

namespace FileLabels

variable (f : FileLabels α)

omit [Min α] in
theorem sourceBlocks_blocksAfter (before : Option α) (lines : List α) :
    sourceBlocks (f.blocksAfter before lines) = lines.map f.sourceBlock := by
  induction lines generalizing before with
  | nil => rfl
  | cons line lines ih =>
    have rest := congrArg (f.sourceBlock line :: ·) (ih (some line))
    cases before with
    | none => exact rest
    | some before =>
      rw [blocksAfter]
      split <;> exact rest

theorem sourceBlocks_layout : sourceBlocks f.layout.blocks = f.shown.map f.sourceBlock :=
  f.sourceBlocks_blocksAfter none f.shown

theorem source_mem_layout {block : SourceBlock α} :
    .source block ∈ f.layout.blocks ↔ ∃ line ∈ f.shown, block = f.sourceBlock line := by
  rw [← mem_sourceBlocks, sourceBlocks_layout, List.mem_map]
  simp only [eq_comm]

end FileLabels

end

theorem nodup_file_layoutLabels (sources : Sources) (config : Config)
    (labels : List (ResolvedLabel Nat)) :
    ((layoutLabels sources config labels).map (·.file)).Nodup := by
  have files : (layoutLabels sources config labels).map (·.file) =
      (groupByFile labels).map (·.1) := by
    simp only [layoutLabels, fileLabels, List.map_map]
    rfl
  exact files ▸ nodup_groupByFile labels

namespace FileLabels

variable (f : FileLabels Nat)

/-- The first block of some lines is that of the first one, unless lines are left out in
front of it. -/
theorem blocksAfter_cons (before : Option Nat) (line : Nat) (lines : List Nat) :
    (∀ last, before = some last → line ≤ last + 1) ∧
        f.blocksAfter before (line :: lines) =
          .source (f.sourceBlock line) :: f.blocksAfter (some line) lines ∨
      ∃ last, before = some last ∧ last + 1 < line ∧ f.blocksAfter before (line :: lines) =
        .elided (f.slotsBetween last line) :: .source (f.sourceBlock line) ::
          f.blocksAfter (some line) lines := by
  cases before with
  | none => exact .inl ⟨fun _ none => (nomatch none), rfl⟩
  | some last =>
    rw [blocksAfter]
    split
    · rename_i apart
      exact .inr ⟨last, rfl, apart, rfl⟩
    · rename_i next
      exact .inl ⟨fun _ same => Option.some.inj same ▸ Nat.le_of_not_lt next, rfl⟩

theorem sourceLines_layout : sourceLines f.layout.blocks = f.shown := by
  rw [sourceLines, sourceBlocks_layout, List.map_map]
  exact List.map_id f.shown

end FileLabels
end Layout
end Excerpt
