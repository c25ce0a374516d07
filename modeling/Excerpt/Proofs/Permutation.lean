import Excerpt.Proofs.Emission
import Excerpt.Proofs.Layout.Reordered
import Excerpt.Proofs.Separation
import Mathlib.Data.List.Sort

/-! The order of labels breaks ties only. Labels that come in another order have the same layouts
as long as their files, and the position each file is announced with, are the same and no two
of them clash. -/
namespace Excerpt

open Layout (FileLabels)

/-! ## Shown lines -/

section

variable {lines others : List Nat} (same : ∀ line, line ∈ others ↔ line ∈ lines)

include same

theorem eachOnce_congr : eachOnce others = eachOnce lines := by
  apply List.Pairwise.eq_of_mem_iff (eachOnce_sorted others) (eachOnce_sorted lines)
  intro line
  rw [mem_eachOnce, mem_eachOnce, same]

theorem min?_congr : others.min? = lines.min? := by
  apply Option.ext
  intro first
  rw [List.min?_eq_some_iff, List.min?_eq_some_iff]
  simp only [same]

theorem max?_congr : others.max? = lines.max? := by
  apply Option.ext
  intro last
  rw [List.max?_eq_some_iff, List.max?_eq_some_iff]
  simp only [same]

theorem contextLines_congr (config : Config) (lineCount : Nat) :
    contextLines config lineCount others = contextLines config lineCount lines := by
  rw [contextLines, contextLines, min?_congr same, max?_congr same]

theorem contextCount_congr (config : Config) (lineCount : Nat) :
    contextCount config lineCount others = contextCount config lineCount lines := by
  rw [contextCount, contextCount, min?_congr same, max?_congr same]

end

section

variable {labels others : List (ResolvedLabel Nat)}
  (perm : (others.map ResolvedLabel.bare).Perm (labels.map ResolvedLabel.bare)) (config : Config)

include perm

theorem mem_shownLines_of_perm (line : Nat) :
    line ∈ others.flatMap (ResolvedLabel.shownLines config) ↔
      line ∈ labels.flatMap (ResolvedLabel.shownLines config) := by
  have lines := perm.flatMap_right (ResolvedLabel.shownLines config)
  rw [List.flatMap_map, List.flatMap_map] at lines
  exact lines.mem_iff

theorem shownLines_of_perm (lineCount : Nat) :
    shownLines config lineCount others = shownLines config lineCount labels := by
  have same := mem_shownLines_of_perm perm config
  apply eachOnce_congr
  intro line
  rw [List.mem_append, List.mem_append, same, contextLines_congr same]

theorem shownFault?_of_perm (lineCount : Nat) :
    shownFault? config lineCount others = shownFault? config lineCount labels := by
  have same := mem_shownLines_of_perm perm config
  have counts : (others.map (ResolvedLabel.shownCount config)).Perm
      (labels.map (ResolvedLabel.shownCount config)) := by
    have images := perm.map (ResolvedLabel.shownCount config)
    rw [List.map_map, List.map_map] at images
    exact images
  have some_count (p : Nat → Bool) : (others.map (ResolvedLabel.shownCount config)).any p =
      (labels.map (ResolvedLabel.shownCount config)).any p := counts.any_eq
  have any_order : RightCommutative fun listed count : Nat => listed + count + 1 :=
    ⟨fun a b c => by omega⟩
  simp only [shownFault?, some_count, counts.foldl_eq, eachOnce_congr same,
    contextCount_congr same]

end

/-! ## One file -/

/-- The start of the first primary label, or of the first label. -/
def anchor (labels : List (ResolvedLabel Nat)) : Option (Position Nat) :=
  ((labels.find? fun l => l.style == .primary).or labels.head?).map (·.start)

namespace Layout.FileLabels

theorem location_eq (f : FileLabels Nat) : f.location = (anchor f.labels).getD ⟨1, 1⟩ := by
  rw [location, anchor]
  cases (f.labels.find? fun l => l.style == .primary).or f.labels.head? <;> rfl

theorem blocksAfter_congr {f g : FileLabels Nat}
    (source : ∀ line, g.sourceBlock line = f.sourceBlock line)
    (gap : ∀ before after, before < after →
      g.slotsBetween before after = f.slotsBetween before after)
    (before : Option Nat) (lines : List Nat) :
    g.blocksAfter before lines = f.blocksAfter before lines := by
  induction lines generalizing before with
  | nil => rfl
  | cons line lines ih =>
    simp only [blocksAfter, ih, source]
    cases before with
    | none => rfl
    | some before =>
      dsimp only
      split
      · rename_i apart
        rw [gap before line (by omega)]
      · rfl

theorem passing_line (line : Nat) : Connectors.Passing fun l : ResolvedLabel Nat =>
    l.start.line < line && line < l.stop.line where
  bare l := rfl
  multi l h := by
    rw [Bool.and_eq_true, decide_eq_true_eq, decide_eq_true_eq] at h
    exact ResolvedLabel.isMultiline_iff.mpr (by omega)
  meets a b ha hb := by
    rw [Bool.and_eq_true, decide_eq_true_eq, decide_eq_true_eq] at ha hb
    exact ⟨by omega, by omega⟩

theorem passing_gap {before after : Nat} (apart : before < after) :
    Connectors.Passing fun l : ResolvedLabel Nat =>
      l.start.line ≤ before && after ≤ l.stop.line where
  bare l := rfl
  multi l h := by
    rw [Bool.and_eq_true, decide_eq_true_eq, decide_eq_true_eq] at h
    exact ResolvedLabel.isMultiline_iff.mpr (by omega)
  meets a b ha hb := by
    rw [Bool.and_eq_true, decide_eq_true_eq, decide_eq_true_eq] at ha hb
    exact ⟨by omega, by omega⟩

variable {sources : Sources} {config : Config} {labels others : List (ResolvedLabel Nat)}

/-- What stands below a line has no fault if no marker of a label has one. -/
theorem faultAt?_eq_none_iff (f : FileLabels Nat) (line : Nat) :
    f.faultAt? line = none ↔
      (∀ l ∈ f.labels.map ResolvedLabel.bare,
        ∀ m ∈ l.markers line (1 + Columns.width f.tabWidth (f.textAt line)), m.fault? = none) ∧
      Columns.fault? f.tabWidth (f.textAt line) = none := by
  have placed (lineEnd : Nat) : (markerRows (markersOn f.labels line lineEnd)).flatten.Perm
      (f.labels.flatMap (ResolvedLabel.markers line lineEnd)) :=
    (flatten_markerRows _).trans (Marker.sort_perm _)
  rw [faultAt?, Option.or_eq_none_iff, List.findSome?_eq_none_iff]
  apply and_congr_left
  intro _
  simp only [markersAt, (placed _).mem_iff, List.mem_flatMap, List.forall_mem_map,
    ResolvedLabel.markers_bare]
  constructor
  · intro each l hl m hm
    exact each m ⟨l, hl, hm⟩
  · rintro each m ⟨l, hl, hm⟩
    exact each l hl m hm

theorem fault?_eq_none_iff (f : FileLabels Nat) :
    f.fault? = none ↔ f.columns.length ≤ mostAtOnce ∧
      shownFault? f.config f.lineCount f.labels = none ∧
      ∀ line ∈ f.shown, f.faultAt? line = none := by
  rw [fault?]
  split
  · rename_i many
    simp [Nat.not_le.mpr many]
  · rename_i few
    rw [and_iff_right (Nat.le_of_not_lt few)]
    cases shownFault? f.config f.lineCount f.labels with
    | some fault => simp
    | none => simp [List.findSome?_eq_none_iff]

theorem labelsOf_perm (perm : (others.map ResolvedLabel.bare).Perm (labels.map ResolvedLabel.bare))
    (file : Number) : ((labelsOf file others).map ResolvedLabel.bare).Perm
      ((labelsOf file labels).map ResolvedLabel.bare) := by
  have own (ls : List (ResolvedLabel Nat)) : (labelsOf file ls).map ResolvedLabel.bare =
      labelsOf file (ls.map ResolvedLabel.bare) := by
    rw [labelsOf, labelsOf, List.filter_map]
    rfl
  rw [own, own]
  exact perm.filter _

/-- Whether a file can be laid out does not depend on the order of its labels at all. -/
theorem fault?_select_of_perm (file : Number)
    (perm : (others.map ResolvedLabel.bare).Perm (labels.map ResolvedLabel.bare))
    (distinct : (labels.map (·.order)).Nodup) (distinct' : (others.map (·.order)).Nodup) :
    (select sources config others file).fault? = none ↔
      (select sources config labels file).fault? = none := by
  have own := labelsOf_perm perm file
  have connected : (select sources config others file).columns.length =
      (select sources config labels file).columns.length :=
    Connectors.length_eq_of_perm (nodup_select distinct sources config file)
      (nodup_select distinct' sources config file) own
  have shown : (select sources config others file).shown =
      (select sources config labels file).shown := shownLines_of_perm own config _
  have few : shownFault? config (select sources config others file).lineCount
        (labelsOf file others) =
      shownFault? config (select sources config labels file).lineCount (labelsOf file labels) :=
    shownFault?_of_perm own config _
  rw [fault?_eq_none_iff, fault?_eq_none_iff, shown, connected]
  apply and_congr_right
  intro _
  apply and_congr (Eq.congr_left few)
  apply forall₂_congr
  intro line _
  rw [faultAt?_eq_none_iff, faultAt?_eq_none_iff]
  apply and_congr_left
  intro _
  apply forall_congr'
  intro l
  exact imp_congr_left own.mem_iff

theorem layout_select_of_perm (file : Number)
    (perm : (others.map ResolvedLabel.bare).Perm (labels.map ResolvedLabel.bare))
    (distinct : (labels.map (·.order)).Nodup) (distinct' : (others.map (·.order)).Nodup)
    (untied : labels.Pairwise fun a b => a.file = b.file → ¬a.Clashes b)
    (anchors : anchor (labelsOf file others) = anchor (labelsOf file labels)) :
    (select sources config others file).layout = (select sources config labels file).layout := by
  have own := labelsOf_perm perm file
  -- Labels of other files may clash; they are laid out apart.
  have free : Untied (labelsOf file labels) := by
    apply (untied.sublist List.filter_sublist).imp_of_mem
    intro a b ha hb apart
    have fileA := beq_iff_eq.mp (List.mem_filter.mp ha).2
    have fileB := beq_iff_eq.mp (List.mem_filter.mp hb).2
    exact apart (fileA.trans fileB.symm)
  have once := nodup_select distinct sources config file
  have once' := nodup_select distinct' sources config file
  have shown : (select sources config others file).shown =
      (select sources config labels file).shown := shownLines_of_perm own config _
  have bars (line : Nat) : (select sources config others file).slotsAt line =
      (select sources config labels file).slotsAt line :=
    Connectors.slots_eq_of_perm free once once' own (passing_line line)
  have gaps (before after : Nat) (apart : before < after) :
      (select sources config others file).slotsBetween before after =
        (select sources config labels file).slotsBetween before after :=
    Connectors.slots_eq_of_perm free once once' own (passing_gap apart)
  have blocks (line : Nat) : (select sources config others file).sourceBlock line =
      (select sources config labels file).sourceBlock line := by
    have rows (text : String) :
        ((select sources config others file).markersAt line text).flatMap annotate =
          ((select sources config labels file).markersAt line text).flatMap annotate :=
      free.rows_eq_of_perm own line _
    simp only [sourceBlock, bars, rows]
    rfl
  have location : (select sources config others file).location =
      (select sources config labels file).location := by
    rw [location_eq, location_eq]
    exact congrArg (·.getD ⟨1, 1⟩) anchors
  have width : (select sources config others file).columns.width =
      (select sources config labels file).columns.width :=
    Connectors.width_eq_of_perm free once once' own
  rw [layout, layout, shown, location, width, blocksAfter_congr blocks gaps]
  rfl

end Layout.FileLabels

/-! ## All files -/

section

variable {labels others : List (ResolvedLabel Nat)}

theorem layoutFault?_of_perm (sources : Sources) (config : Config)
    (perm : (others.map ResolvedLabel.bare).Perm (labels.map ResolvedLabel.bare))
    (distinct : (labels.map (·.order)).Nodup) (distinct' : (others.map (·.order)).Nodup) :
    layoutFault? sources config others = none ↔ layoutFault? sources config labels = none := by
  have each (ls : List (ResolvedLabel Nat)) : layoutFault? sources config ls = none ↔
      ∀ l ∈ ls.map ResolvedLabel.bare,
        (FileLabels.select sources config ls l.file).fault? = none := by
    simp only [layoutFault?, List.findSome?_eq_none_iff, Layout.mem_fileLabels, List.forall_mem_map]
    constructor
    · intro built l hl
      exact built _ ⟨l, hl, rfl⟩
    · rintro built _ ⟨l, hl, rfl⟩
      exact built l hl
  rw [each, each]
  apply forall_congr'
  intro l
  rw [perm.mem_iff, FileLabels.fault?_select_of_perm l.file perm distinct distinct']

theorem layoutLabels_of_perm (sources : Sources) (config : Config)
    (perm : (others.map ResolvedLabel.bare).Perm (labels.map ResolvedLabel.bare))
    (distinct : (labels.map (·.order)).Nodup) (distinct' : (others.map (·.order)).Nodup)
    (files : filesOf others = filesOf labels)
    (anchors : ∀ file, anchor (labelsOf file others) = anchor (labelsOf file labels))
    (untied : labels.Pairwise fun a b => a.file = b.file → ¬a.Clashes b) :
    layoutLabels sources config others = layoutLabels sources config labels := by
  rw [layoutLabels, layoutLabels, fileLabels_eq, fileLabels_eq, files, List.map_map, List.map_map]
  apply List.map_congr_left
  intro file _
  exact FileLabels.layout_select_of_perm file perm distinct distinct' untied (anchors file)

end

namespace Diagnostic

variable {sources : Sources} {options : Options} {config : Config} {d : Diagnostic}
  {others : List Label} {labels changed : List (ResolvedLabel Nat)}

/-- What a label is resolved to does not depend on its place. -/
theorem map_bare_of_resolveLabels (found : d.resolveLabels sources config = .ok labels) :
    labels.map ResolvedLabel.bare =
      d.labels.filterMap fun label => (label.resolve sources config 0).toOption := by
  have each : List.Forall₂ (fun (label : Label) (l : ResolvedLabel Nat) =>
      (label.resolve sources config 0).toOption = some l.bare) d.labels labels := by
    rw [← forall₂_zipIdx]
    refine (mapM_eq_ok_iff.mp found).imp fun numbered l resolved => ?_
    obtain ⟨start, stop, ends, rfl⟩ := Label.resolve_eq_ok_iff.mp resolved
    rw [Label.resolve_eq_ok_iff.mpr ⟨start, stop, ends, rfl⟩]
    rfl
  clear found
  generalize d.labels = given at each ⊢
  induction each with
  | nil => rfl
  | cons own _ ih =>
    rw [List.map_cons, ih, List.filterMap_cons, own]

theorem resolveLabels_perm (perm : others.Perm d.labels)
    (found : d.resolveLabels sources config = .ok labels)
    (refound : ({ d with labels := others } : Diagnostic).resolveLabels sources config =
      .ok changed) : (changed.map ResolvedLabel.bare).Perm (labels.map ResolvedLabel.bare) := by
  rw [map_bare_of_resolveLabels found, map_bare_of_resolveLabels refound]
  exact perm.filterMap _

end Diagnostic

/-- Labels in another order are laid out alike, and so are their reports: with the files in the
same order, each announced with the same position, and no two labels of a file that mark a line
from the same column on in the same style. If a layout is beyond the limits of texts and lists,
it is for both. -/
theorem label_order_breaks_ties {sources : Sources} {options : Options} {config : Config}
    {d : Diagnostic} {others : List Label} {labels changed : List (ResolvedLabel Nat)}
    (ok : options.settings.resolve = .ok config) (perm : others.Perm d.labels)
    (found : d.resolveLabels sources config = .ok labels)
    (refound : ({ d with labels := others } : Diagnostic).resolveLabels sources config =
      .ok changed)
    (files : filesOf changed = filesOf labels)
    (anchors : ∀ file, anchor (labelsOf file changed) = anchor (labelsOf file labels))
    (untied : labels.Pairwise fun a b => a.file = b.file → ¬a.Clashes b) :
    (∃ layouts, layoutLabels? sources config labels = .ok layouts ∧
        layoutLabels? sources config changed = .ok layouts ∧
        ({ d with labels := others } : Diagnostic).document sources options =
          d.document sources options) ∨
      ((∃ fault, layoutLabels? sources config labels = .error fault) ∧
        (∃ fault, layoutLabels? sources config changed = .error fault) ∧
        (∃ fault, d.document sources options = .error (.layout fault)) ∧
        ∃ fault, ({ d with labels := others } : Diagnostic).document sources options =
          .error (.layout fault)) := by
  have bare := Diagnostic.resolveLabels_perm perm found refound
  have distinct := Diagnostic.nodup_order_of_resolveLabels found
  have distinct' := Diagnostic.nodup_order_of_resolveLabels refound
  have faults := layoutFault?_of_perm sources config bare distinct distinct'
  cases first : layoutFault? sources config labels with
  | none =>
    left
    have second := faults.mpr first
    have same := layoutLabels_of_perm sources config bare distinct distinct' files anchors untied
    refine ⟨layoutLabels sources config labels, ?_, ?_, ?_⟩
    · rw [layoutLabels?, first]
    · rw [layoutLabels?, second, same]
    · rw [Diagnostic.document_of_layouts ok found first,
        Diagnostic.document_of_layouts ok refound second, Diagnostic.reportOf, Diagnostic.reportOf,
        same]
      rfl
  | some fault =>
    right
    obtain ⟨fault', second⟩ := Option.ne_none_iff_exists'.mp
      (mt faults.mp (by rw [first]; exact Option.some_ne_none fault))
    refine ⟨⟨fault, ?_⟩, ⟨fault', ?_⟩, ⟨_, Diagnostic.document_of_layoutFault ok found first⟩,
      ⟨_, Diagnostic.document_of_layoutFault ok refound second⟩⟩
    · rw [layoutLabels?, first]
    · rw [layoutLabels?, second]

/-! ## Two labels the other way round -/

namespace Sample

/-- A cause and its context at one letter. -/
def twice : Diagnostic :=
  ⟨.error, none, "m", [⟨.secondary, ⟨(0 : Nat), (0 : Nat), (1 : Nat)⟩, some "y"⟩,
    ⟨.primary, ⟨(0 : Nat), (0 : Nat), (1 : Nat)⟩, some "x"⟩], []⟩

def twiceFound : List (ResolvedLabel Nat) :=
  [⟨.secondary, some "y", (0 : Nat), ⟨1, 1⟩, ⟨1, 2⟩, 0⟩,
    ⟨.primary, some "x", (0 : Nat), ⟨1, 1⟩, ⟨1, 2⟩, 1⟩]

def reversedFound : List (ResolvedLabel Nat) :=
  [⟨.primary, some "x", (0 : Nat), ⟨1, 1⟩, ⟨1, 2⟩, 0⟩,
    ⟨.secondary, some "y", (0 : Nat), ⟨1, 1⟩, ⟨1, 2⟩, 1⟩]

theorem twice_resolved :
    twice.resolveLabels threeFiles.sources .standard = .ok twiceFound := by
  decide +kernel

theorem reversed_resolved :
    ({ twice with labels := twice.labels.reverse } : Diagnostic).resolveLabels
      threeFiles.sources .standard = .ok reversedFound := by
  decide +kernel

theorem twice_untied : twiceFound.Pairwise fun a b => a.file = b.file → ¬a.Clashes b := by
  refine List.pairwise_pair.mpr fun _ => ?_
  rintro ⟨line, lineEnd, m, hm, n, hn, _, style⟩
  obtain ⟨_, _, _, _, _, rfl⟩ := ResolvedLabel.marker_of_mem_markers hm
  obtain ⟨_, _, _, _, _, rfl⟩ := ResolvedLabel.marker_of_mem_markers hn
  cases style

theorem twice_anchors (file : Number) :
    anchor (labelsOf file reversedFound) = anchor (labelsOf file twiceFound) := by
  by_cases here : file = (0 : Nat)
  · rw [here]
    decide
  · have none_there (ls : List (ResolvedLabel Nat)) (own : ∀ l ∈ ls, l.file = (0 : Nat)) :
        labelsOf file ls = [] := by
      apply List.filter_eq_nil_iff.mpr
      intro l hl same
      exact here ((beq_iff_eq.mp same).symm.trans (own l hl))
    rw [none_there reversedFound (by decide), none_there twiceFound (by decide)]

def twiceLabels : FileLabels Nat := ⟨threeFiles.sources, .standard, (0 : Nat), twiceFound, []⟩

theorem fileLabels_twice :
    Excerpt.fileLabels threeFiles.sources .standard twiceFound = [twiceLabels] := by
  have files : filesOf twiceFound = [((0 : Nat) : Number)] := by decide
  have all : labelsOf (0 : Nat) twiceFound = twiceFound := by decide
  have none_joined : connectors twiceFound = [] := by cbv
  rw [fileLabels_eq, files, List.map_singleton, FileLabels.ofFile, all, none_joined, twiceLabels]

theorem twice_built : layoutFault? threeFiles.sources .standard twiceFound = none := by
  have counted : twiceLabels.lineCount = 1 := by decide
  have written : twiceLabels.textAt 1 = "b" := by decide
  have shown : twiceLabels.shown = [1] := by
    rw [FileLabels.shown, counted]
    cbv
  rw [layoutFault?, fileLabels_twice, List.findSome?_singleton, FileLabels.fault?_eq_none_iff,
    counted, shown]
  refine ⟨Nat.zero_le _, by cbv, ?_⟩
  · intro line only
    rw [List.mem_singleton.mp only, FileLabels.faultAt?_eq_none_iff, written]
    decide

end Sample

theorem label_order_breaks_ties_sample :
    Sample.twice.labels.reverse.Perm Sample.twice.labels ∧
      (∀ file, anchor (labelsOf file Sample.reversedFound) =
        anchor (labelsOf file Sample.twiceFound)) ∧
      (Sample.twiceFound.Pairwise fun a b => a.file = b.file → ¬a.Clashes b) ∧
      ∃ layouts,
        layoutLabels? Sample.threeFiles.sources .standard Sample.twiceFound = .ok layouts ∧
        layoutLabels? Sample.threeFiles.sources .standard Sample.reversedFound = .ok layouts ∧
        ({ Sample.twice with labels := Sample.twice.labels.reverse } : Diagnostic).document
            Sample.threeFiles.sources .standard =
          Sample.twice.document Sample.threeFiles.sources .standard := by
  have perm := List.reverse_perm Sample.twice.labels
  refine ⟨perm, Sample.twice_anchors, Sample.twice_untied, ?_⟩
  rcases label_order_breaks_ties Sample.standard_resolved perm Sample.twice_resolved
    Sample.reversed_resolved (by decide) Sample.twice_anchors Sample.twice_untied with
    alike | ⟨⟨fault, beyond⟩, _⟩
  · exact alike
  · rw [layoutLabels?, Sample.twice_built] at beyond
    cases beyond

/-- Where the only line is too long, even a list of one label has no layouts to be compared. -/
theorem no_layouts_behind_wide_tab :
    Sample.wideTab.settings.resolve = .ok Sample.wideTabConfig ∧
      Sample.atLetter.resolveLabels Sample.tabbed.sources Sample.wideTabConfig =
        .ok [Sample.letterFoundFar] ∧
      ([Sample.letterFoundFar].Pairwise fun a b => a.file = b.file → ¬a.Clashes b) ∧
      ¬∃ layouts, layoutLabels? Sample.tabbed.sources Sample.wideTabConfig
        [Sample.letterFoundFar] = .ok layouts := by
  refine ⟨Sample.wideTab_resolved, Sample.letter_resolved_far, List.pairwise_singleton _ _, ?_⟩
  rintro ⟨layouts, built⟩
  have long : layoutFault? Sample.tabbed.sources Sample.wideTabConfig
      [Sample.letterFoundFar] ≠ none :=
    layoutFault?_of_long_line (List.mem_singleton_self Sample.letterFoundFar) (by decide +kernel)
  rw [layoutLabels?] at built
  split at built
  · cases built
  · rename_i fits
    exact long fits

end Excerpt
