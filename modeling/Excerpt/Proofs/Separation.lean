import Excerpt.Proofs.Emission

/-! Files are laid out apart. A file has the layout its own labels have by themselves, whatever
labels of other files stand between them; and the first file that has none, by itself, is the
reason why all labels together have none. -/
namespace Excerpt

open Layout (FileLabels)

variable {α : Type} [LT α] [DecidableLT α] [LE α] [DecidableLE α] [DecidableEq α] [NatCast α]
  {sources : Sources} {config : Config} {labels : List (ResolvedLabel α)}

/-- What the layout of a file is made from. -/
def Layout.FileLabels.ofFile (sources : Sources) (config : Config)
    (labels : List (ResolvedLabel α)) (file : Number) : FileLabels α :=
  ⟨sources, config, file, labelsOf file labels, connectors (labelsOf file labels)⟩

theorem fileLabels_eq : fileLabels sources config labels =
    (filesOf labels).map (FileLabels.ofFile sources config labels) := by
  rw [fileLabels, groupByFile_eq, List.map_map]
  rfl

variable [Add α] [Sub α] [Mod α] [Max α] [Min α] [OfNat α 0] [OfNat α 1] [Coordinate α]

namespace Layout

/-- The layout of a file, if it can be built. -/
def FileLabels.layout? (f : FileLabels α) : Except LayoutFault (FileLayout α) :=
  match f.fault? with
  | some fault => .error fault
  | none => .ok f.layout

theorem FileLabels.file_of_layout? {f : FileLabels α} {layout : FileLayout α}
    (h : f.layout? = .ok layout) : layout.file = f.file := by
  rw [layout?] at h
  split at h
  · cases h
  · cases h
    rfl

end Layout

theorem mapM_layout? (files : List (FileLabels α)) :
    files.mapM FileLabels.layout? =
      match files.findSome? FileLabels.fault? with
      | some fault => .error fault
      | none => .ok (files.map FileLabels.layout) := by
  induction files with
  | nil => rfl
  | cons f files ih =>
    rw [List.mapM_cons, ih, FileLabels.layout?, List.findSome?_cons]
    cases f.fault? with
    | some fault => rfl
    | none => cases files.findSome? FileLabels.fault? <;> rfl

/-- Files are laid out one after another, up to the first one that cannot be. -/
theorem layoutLabels?_eq : layoutLabels? sources config labels =
    (filesOf labels).mapM fun file => (FileLabels.ofFile sources config labels file).layout? := by
  have files := mapM_layout? (fileLabels sources config labels)
  rw [fileLabels_eq, List.mapM_map] at files
  rw [layoutLabels?, layoutLabels, layoutFault?, fileLabels_eq]
  exact files.symm

theorem layoutLabels?_labelsOf {file : Number} (member : file ∈ filesOf labels) :
    layoutLabels? sources config (labelsOf file labels) =
      (FileLabels.ofFile sources config labels file).layout?.map fun layout => [layout] := by
  rw [layoutLabels?_eq, filesOf_labelsOf member, List.mapM_cons, List.mapM_nil,
    FileLabels.ofFile, labelsOf_labelsOf, ← FileLabels.ofFile]
  cases (FileLabels.ofFile sources config labels file).layout? <;> rfl

theorem layoutLabels?_labelsOf_eq_ok {file : Number} (member : file ∈ filesOf labels)
    {layout : FileLayout α} :
    layoutLabels? sources config (labelsOf file labels) = .ok [layout] ↔
      (FileLabels.ofFile sources config labels file).layout? = .ok layout := by
  rw [layoutLabels?_labelsOf member]
  cases (FileLabels.ofFile sources config labels file).layout? <;> simp [Except.map]

theorem layoutLabels?_labelsOf_eq_error {file : Number} (member : file ∈ filesOf labels)
    {fault : LayoutFault} :
    layoutLabels? sources config (labelsOf file labels) = .error fault ↔
      (FileLabels.ofFile sources config labels file).layout? = .error fault := by
  rw [layoutLabels?_labelsOf member]
  cases (FileLabels.ofFile sources config labels file).layout? <;> simp [Except.map]

theorem layoutLabels?_eq_ok_iff {layouts : List (FileLayout α)} :
    layoutLabels? sources config labels = .ok layouts ↔
      List.Forall₂ (fun file layout => layout.file = file ∧
        layoutLabels? sources config (labelsOf file labels) = .ok [layout])
      (filesOf labels) layouts := by
  rw [layoutLabels?_eq, mapM_eq_ok_iff]
  have each (file : Number) (layout : FileLayout α) (member : file ∈ filesOf labels) :
      (FileLabels.ofFile sources config labels file).layout? = .ok layout ↔
        layout.file = file ∧
          layoutLabels? sources config (labelsOf file labels) = .ok [layout] := by
    rw [layoutLabels?_labelsOf_eq_ok member]
    constructor
    · intro built
      exact ⟨FileLabels.file_of_layout? built, built⟩
    · intro own
      exact own.2
  have here : ∀ file ∈ filesOf labels, file ∈ filesOf labels := fun _ member => member
  constructor
  · intro built
    exact ((List.forall₂_and_left _ _).mpr ⟨here, built⟩).imp fun file layout own =>
      (each file layout own.1).mp own.2
  · intro own
    exact ((List.forall₂_and_left _ _).mpr ⟨here, own⟩).imp fun file layout own =>
      (each file layout own.1).mpr own.2

theorem layoutLabels?_eq_error_iff {fault : LayoutFault} :
    layoutLabels? sources config labels = .error fault ↔
      ∃ before file after, filesOf labels = before ++ file :: after ∧
        (∀ earlier ∈ before, ∃ layout,
          layoutLabels? sources config (labelsOf earlier labels) = .ok [layout]) ∧
        layoutLabels? sources config (labelsOf file labels) = .error fault := by
  rw [layoutLabels?_eq, mapM_eq_error_iff]
  apply exists_congr
  intro before
  apply exists_congr
  intro file
  apply exists_congr
  intro after
  apply and_congr_right
  intro files
  have inside {other : Number} (h : other ∈ before ++ file :: after) : other ∈ filesOf labels :=
    files ▸ h
  rw [layoutLabels?_labelsOf_eq_error (inside (by simp))]
  apply and_congr_left
  intro _
  apply forall₂_congr
  intro earlier member
  simp only [layoutLabels?_labelsOf_eq_ok (inside (List.mem_append_left _ member))]

/-- There is one layout for each file, in order of first labels, and it is the one that the labels
of the file have by themselves. If the labels of some file have none, the first such file is
told; and a layout stays what it is among any other labels of other files. -/
theorem files_laid_out_apart (sources : Sources) (config : Config)
    (labels : List (ResolvedLabel α)) :
    (∀ layouts, layoutLabels? sources config labels = .ok layouts ↔
      List.Forall₂ (fun file layout => layout.file = file ∧
        layoutLabels? sources config (labelsOf file labels) = .ok [layout])
      (filesOf labels) layouts) ∧
    (∀ fault, layoutLabels? sources config labels = .error fault ↔
      ∃ before file after, filesOf labels = before ++ file :: after ∧
        (∀ earlier ∈ before, ∃ layout,
          layoutLabels? sources config (labelsOf earlier labels) = .ok [layout]) ∧
        layoutLabels? sources config (labelsOf file labels) = .error fault) ∧
    ∀ (others : List (ResolvedLabel α)) (layouts changed : List (FileLayout α)),
      layoutLabels? sources config labels = .ok layouts →
      layoutLabels? sources config others = .ok changed →
      ∀ layout ∈ layouts, labelsOf layout.file others = labelsOf layout.file labels →
        layout ∈ changed := by
  refine ⟨fun layouts => layoutLabels?_eq_ok_iff, fun fault => layoutLabels?_eq_error_iff, ?_⟩
  intro others layouts changed built rebuilt layout member same
  rw [layoutLabels?_eq_ok_iff] at built rebuilt
  obtain ⟨file, inside, rfl, own⟩ := exists_of_forall₂ built.flip member
  have kept : layout.file ∈ filesOf others := by
    rwa [mem_filesOf_iff, same, ← mem_filesOf_iff]
  obtain ⟨again, found, _, own_again⟩ := exists_of_forall₂ rebuilt kept
  rw [same, own] at own_again
  cases own_again
  exact found

namespace Sample

/-- Two files of a letter, and one of a letter behind a tab. -/
def threeFiles : Store := .ofList [("g", "b"), ("h", "c"), ("f", "\ta")]

def atFirst (file order : Nat) : ResolvedLabel Nat :=
  ⟨.secondary, none, file, ⟨1, 1⟩, ⟨1, 2⟩, order⟩

def farInTabbed : ResolvedLabel Nat :=
  ⟨.primary, none, (2 : Nat), ⟨1, 1073741825⟩, ⟨1, 1073741826⟩, 1⟩

def layoutOf (file : Nat) (name : String) (text : Strip) : FileLayout Nat :=
  { file, name, location := ⟨1, 1⟩, gutterWidth := 1, connectorWidth := 0
    blocks := [.source ⟨1, text, [], [⟨[], [⟨1, .marker, .secondary, "-"⟩]⟩]⟩] }

def oneLabel (file order : Nat) : FileLabels Nat :=
  ⟨threeFiles.sources, wideTabConfig, file, [atFirst file order], []⟩

/-- A letter that is a whole file. -/
theorem layout_of_letter {file order : Nat} {name text : String}
    (named : threeFiles.sources.name file = some name)
    (counted : (oneLabel file order).lineCount = 1)
    (written : (oneLabel file order).textAt 1 = text)
    (width : Columns.width (oneLabel file order).tabWidth text = 1)
    (expanded : Columns.expand (oneLabel file order).tabWidth text = text)
    (fits : Columns.fault? (oneLabel file order).tabWidth text = none) :
    layoutLabels? threeFiles.sources wideTabConfig [atFirst file order] =
      .ok [layoutOf file name text] := by
  have own : Excerpt.fileLabels threeFiles.sources wideTabConfig [atFirst file order] =
      [oneLabel file order] :=
    fileLabels_singleton _ _ (by cbv)
  have shown : (oneLabel file order).shown = [1] := by
    rw [FileLabels.shown, counted]
    cbv
  have few : shownFault? (oneLabel file order).config (oneLabel file order).lineCount
      (oneLabel file order).labels = none := by
    rw [counted]
    cbv
  have markers : (oneLabel file order).markersAt 1 text = [[⟨1, 2, .secondary, order, none⟩]] := by
    rw [FileLabels.markersAt, width]
    simp [oneLabel, atFirst, markersOn, ResolvedLabel.markers, ResolvedLabel.isMultiline,
      markerRows, Marker.sort, placeMarker]
  have built : (oneLabel file order).faultAt? 1 = none := by
    rw [FileLabels.faultAt?, written, markers, fits]
    rfl
  have block : (oneLabel file order).sourceBlock 1 =
      ⟨1, text, [], [⟨[], [⟨1, .marker, .secondary, "-"⟩]⟩]⟩ := by
    simp only [FileLabels.sourceBlock, written, markers, expanded]
    rfl
  have blocks : (oneLabel file order).blocksAfter none [1] =
      [.source ((oneLabel file order).sourceBlock 1)] := rfl
  have name_eq : (oneLabel file order).sources.name (oneLabel file order).file = some name := named
  have fine : layoutFault? threeFiles.sources wideTabConfig [atFirst file order] = none := by
    refine layoutFault?_of_one_line (fun f hf => ?_) rfl shown few built
    rwa [own, List.mem_singleton] at hf
  rw [layoutLabels?, fine, layoutLabels, own, List.map_cons, List.map_nil, FileLabels.layout, shown,
    blocks, block, name_eq]
  rfl

theorem layout_of_first : layoutLabels? threeFiles.sources wideTabConfig [atFirst 0 0] =
    .ok [layoutOf 0 "g" "b"] := by
  apply layout_of_letter <;> decide

theorem layout_of_last : layoutLabels? threeFiles.sources wideTabConfig [atFirst 1 1] =
    .ok [layoutOf 1 "h" "c"] := by
  apply layout_of_letter <;> decide

end Sample

/-- A file whose layout is beyond the limits of texts leaves the others without theirs. -/
theorem wide_tab_leaves_no_layout :
    (∃ layout, layoutLabels? Sample.threeFiles.sources Sample.wideTabConfig
      (labelsOf (0 : Nat) [Sample.atFirst 0 0, Sample.farInTabbed]) = .ok [layout]) ∧
    ¬∃ layouts, layoutLabels? Sample.threeFiles.sources Sample.wideTabConfig
      [Sample.atFirst 0 0, Sample.farInTabbed] = .ok layouts := by
  constructor
  · exact ⟨_, Sample.layout_of_first⟩
  · rintro ⟨layouts, built⟩
    have far : layoutFault? Sample.threeFiles.sources Sample.wideTabConfig
        [Sample.atFirst 0 0, Sample.farInTabbed] ≠ none :=
      layoutFault?_of_long_line (l := Sample.farInTabbed) (by simp) (by decide +kernel)
    rw [layoutLabels?] at built
    split at built
    · cases built
    · rename_i none_far
      exact far none_far

theorem files_laid_out_apart_sample :
    layoutLabels? Sample.threeFiles.sources Sample.wideTabConfig
        [Sample.atFirst 1 1, Sample.atFirst 0 0] =
      .ok [Sample.layoutOf 1 "h" "c", Sample.layoutOf 0 "g" "b"] ∧
    ∀ (others : List (ResolvedLabel Nat)) (layouts : List (FileLayout Nat)),
      layoutLabels? Sample.threeFiles.sources Sample.wideTabConfig others = .ok layouts →
      labelsOf (0 : Nat) others = [Sample.atFirst 0 0] → Sample.layoutOf 0 "g" "b" ∈ layouts := by
  obtain ⟨built, _, apart⟩ := files_laid_out_apart Sample.threeFiles.sources Sample.wideTabConfig
    [Sample.atFirst 1 1, Sample.atFirst 0 0]
  have both := (built [Sample.layoutOf 1 "h" "c", Sample.layoutOf 0 "g" "b"]).mpr
    (.cons ⟨rfl, Sample.layout_of_last⟩ (.cons ⟨rfl, Sample.layout_of_first⟩ .nil))
  refine ⟨both, ?_⟩
  intro others layouts rebuilt same
  exact apart others _ layouts both rebuilt _ (by simp) same

end Excerpt
