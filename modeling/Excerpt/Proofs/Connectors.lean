import Excerpt.Proofs.Layout.Columns
import Excerpt.Proofs.Layout.Lines
import Mathlib.Data.List.Nodup

/-! The bars of labels over several lines. Each is drawn beside the blocks between
the first and the last line of its label, in a column that is its own there. -/
namespace Excerpt

open Layout (FileLabels)

@[simp] theorem sourceLines_append (a b : List (Block Nat)) :
    sourceLines (a ++ b) = sourceLines a ++ sourceLines b := by
  simp [sourceLines, sourceBlocks]

@[simp] theorem sourceLines_source (block : SourceBlock Nat) (blocks : List (Block Nat)) :
    sourceLines (.source block :: blocks) = block.line :: sourceLines blocks := rfl

theorem mem_front_iff {front back : List Nat} {p : Nat → Prop} (hf : ∀ a ∈ front, p a)
    (hb : ∀ b ∈ back, ¬ p b) {m : Nat} (hm : m ∈ front ++ back) : m ∈ front ↔ p m :=
  ⟨hf m, fun hp => (List.mem_append.mp hm).resolve_right fun h => hb m h hp⟩

theorem mem_back_iff {front back : List Nat} {p : Nat → Prop} (hf : ∀ a ∈ front, ¬ p a)
    (hb : ∀ b ∈ back, p b) {m : Nat} (hm : m ∈ front ++ back) : m ∈ back ↔ p m :=
  ⟨hb m, fun hp => (List.mem_append.mp hm).resolve_left fun h => hf m h hp⟩

/-- The first line of a label is above a block, and its last line is below. -/
def ResolvedLabel.Passes (l : ResolvedLabel Nat) (above below : List (Block Nat)) : Prop :=
  l.start.line ∈ sourceLines above ∧ l.stop.line ∈ sourceLines below

/-- The bar of a label passes a block in a column. -/
structure FileLayout.Owner (layout : FileLayout Nat) (labels : List (ResolvedLabel Nat))
    (above below : List (Block Nat)) (column : Nat) (l : ResolvedLabel Nat) : Prop where
  mem : l ∈ layout.own labels
  passes : l.Passes above below
  column : (connectors (layout.own labels)).lookup l.order = some column

namespace Layout.FileLabels

variable (f : FileLabels Nat)

/-- A block is that of a line, or it stands between the line above and the line below it. -/
def Stands (before : Option Nat) (above : List (Block Nat)) (block : Block Nat)
    (below : List (Block Nat)) : Prop :=
  (∃ line, block = .source (f.sourceBlock line)) ∨
    ∃ last first, block = .elided (f.slotsBetween last first) ∧
      (before.toList ++ sourceLines above).getLast? = some last ∧
      (sourceLines below).head? = some first

/-- Nothing above the block of a line matters to what stands below it. -/
theorem Stands.behind_source {f : FileLabels Nat} {line : Nat} {above below : List (Block Nat)}
    {block : Block Nat} (h : f.Stands (some line) above block below) (before : Option Nat) :
    f.Stands before (.source (f.sourceBlock line) :: above) block below := by
  rcases h with source | ⟨last, first, eq, up, down⟩
  · exact .inl source
  · refine .inr ⟨last, first, eq, ?_, down⟩
    rw [sourceLines_source, List.getLast?_append_of_ne_nil _ (List.cons_ne_nil _ _)]
    exact up

theorem stands_of_split {before : Option Nat} {lines : List Nat} {above below : List (Block Nat)}
    {block : Block Nat} (h : f.blocksAfter before lines = above ++ block :: below) :
    f.Stands before above block below := by
  induction lines generalizing before above with
  | nil =>
    have empty := congrArg List.length h
    simp [blocksAfter] at empty
  | cons line lines ih =>
    have behind {above : List (Block Nat)}
        (h : .source (f.sourceBlock line) :: f.blocksAfter (some line) lines =
          above ++ block :: below) :
        f.Stands before above block below := by
      cases above with
      | nil => exact .inl ⟨line, (List.cons.inj h).1.symm⟩
      | cons first above =>
        obtain ⟨rfl, rest⟩ := List.cons.inj h
        exact (ih rest).behind_source before
    rcases f.blocksAfter_cons before line lines with ⟨_, next⟩ | ⟨last, rfl, _, next⟩
    · exact behind (next ▸ h)
    · rw [next] at h
      cases above with
      | nil =>
        obtain ⟨rfl, rfl⟩ := List.cons.inj h
        exact .inr ⟨last, line, rfl, rfl, rfl⟩
      | cons first above =>
        obtain ⟨rfl, rest⟩ := List.cons.inj h
        have later : .source (f.sourceBlock line) :: f.blocksAfter (some line) lines =
            above ++ block :: below := rest
        have found := behind later
        exact found

variable {f} {above below : List (Block Nat)} {block : Block Nat}

theorem lt_of_split (h : f.layout.blocks = above ++ block :: below) {a b : Nat}
    (ha : a ∈ sourceLines above) (hb : b ∈ sourceLines below) : a < b := by
  have sorted := f.shown_sorted
  rw [← f.sourceLines_layout, h, List.append_cons, sourceLines_append, sourceLines_append] at sorted
  exact (List.pairwise_append.mp sorted).2.2 a (List.mem_append_left _ ha) b hb

/-- A label passes the block of a line if the line is strictly between its ends. -/
theorem passes_source_iff {line : Nat}
    (h : f.layout.blocks = above ++ .source (f.sourceBlock line) :: below)
    {l : ResolvedLabel Nat} (hl : l ∈ f.labels) :
    l.Passes above below ↔ l.start.line < line ∧ line < l.stop.line := by
  have split : f.shown = sourceLines above ++ line :: sourceLines below := by
    rw [← f.sourceLines_layout, h, sourceLines_append]
    rfl
  have sorted := f.shown_sorted
  have start := f.start_mem_shown hl
  have stop := f.stop_mem_shown hl
  rw [split] at sorted start stop
  rw [List.append_cons] at stop
  obtain ⟨_, tail, between⟩ := List.pairwise_append.mp sorted
  have lower := (List.pairwise_cons.mp tail).1
  have upper : ∀ a ∈ sourceLines above, a < line := by
    intro a ha
    exact between a ha line (by simp)
  apply and_congr
  · apply mem_front_iff upper _ start
    intro b hb
    rcases List.mem_cons.mp hb with rfl | later
    · exact Nat.lt_irrefl _
    · exact Nat.lt_asymm (lower b later)
  · apply mem_back_iff _ lower stop
    intro a ha
    rcases List.mem_append.mp ha with earlier | same
    · exact Nat.lt_asymm (upper a earlier)
    · exact List.mem_singleton.mp same ▸ Nat.lt_irrefl _

/-- A label passes a gap if neither the line above nor the line below it is beyond its ends. -/
theorem passes_elided_iff {slots : Slots}
    (h : f.layout.blocks = above ++ .elided slots :: below) {last first : Nat}
    (up : (sourceLines above).getLast? = some last)
    (down : (sourceLines below).head? = some first)
    {l : ResolvedLabel Nat} (hl : l ∈ f.labels) :
    l.Passes above below ↔ l.start.line ≤ last ∧ first ≤ l.stop.line := by
  have split : f.shown = sourceLines above ++ sourceLines below := by
    rw [← f.sourceLines_layout, h, sourceLines_append]
    rfl
  have sorted := f.shown_sorted
  have start := f.start_mem_shown hl
  have stop := f.stop_mem_shown hl
  rw [split] at sorted start stop
  obtain ⟨front, back, between⟩ := List.pairwise_append.mp sorted
  have last_above : last ∈ sourceLines above := List.mem_of_getLast? up
  have first_below : first ∈ sourceLines below := List.mem_of_head? down
  apply and_congr
  · apply mem_front_iff (le_of_getLast? front up) _ start
    intro b hb
    exact Nat.not_le_of_lt (between last last_above b hb)
  · apply mem_back_iff _ (le_of_head? back down) stop
    intro a ha
    exact Nat.not_le_of_lt (between a ha first first_below)

/-- The slots of a block are those of the labels that pass it. -/
theorem slots_of_split (h : f.layout.blocks = above ++ block :: below) :
    ∃ passes : ResolvedLabel Nat → Bool, block.slots = f.columns.slots f.labels passes ∧
      ∀ l ∈ f.labels, passes l = true ↔ l.Passes above below := by
  rcases f.stands_of_split h with ⟨line, rfl⟩ | ⟨last, first, rfl, up, down⟩
  · refine ⟨_, rfl, ?_⟩
    intro l hl
    rw [passes_source_iff h hl, Bool.and_eq_true, decide_eq_true_eq, decide_eq_true_eq]
  · refine ⟨_, rfl, ?_⟩
    intro l hl
    rw [passes_elided_iff h up down hl, Bool.and_eq_true, decide_eq_true_eq, decide_eq_true_eq]

/-- No two labels that pass a block have one column. -/
theorem eq_of_passes (distinct : (f.labels.map (·.order)).Nodup)
    (h : f.layout.blocks = above ++ block :: below)
    {a b : ResolvedLabel Nat} (ha : a ∈ f.labels) (hb : b ∈ f.labels)
    (passA : a.Passes above below) (passB : b.Passes above below) {column : Nat}
    (ownA : (connectors f.labels).lookup a.order = some column)
    (ownB : (connectors f.labels).lookup b.order = some column) : a = b := by
  by_cases same : a.order = b.order
  · exact List.inj_on_of_nodup_map distinct ha hb same
  · have multi {l : ResolvedLabel Nat} (hl : l ∈ f.labels) (passes : l.Passes above below) :
        l ∈ f.labels.filter ResolvedLabel.isMultiline := by
      apply List.mem_filter.mpr ⟨hl, ResolvedLabel.isMultiline_iff.mpr _⟩
      exact Nat.ne_of_lt (lt_of_split h passes.1 passes.2)
    have meets : a.Meets b := ⟨Nat.le_of_lt (lt_of_split h passA.1 passB.2),
      Nat.le_of_lt (lt_of_split h passB.1 passA.2)⟩
    have differ := (Connectors.assigns_connectors distinct).apart a (multi ha passA) b
      (multi hb passB) same meets
    exact absurd (ownA.trans ownB.symm) differ

end Layout.FileLabels

namespace FileLayout.Owner

variable {sources : Sources} {config : Config} {labels : List (ResolvedLabel Nat)} {file : Number}
  {above below : List (Block Nat)} {block : Block Nat}

theorem unique (distinct : (labels.map (·.order)).Nodup)
    (h : (FileLabels.select sources config labels file).layout.blocks = above ++ block :: below)
    {column : Nat} {a b : ResolvedLabel Nat}
    (ha : (FileLabels.select sources config labels file).layout.Owner labels above below column a)
    (hb : (FileLabels.select sources config labels file).layout.Owner labels above below column b) :
    a = b :=
  FileLabels.eq_of_passes (FileLabels.nodup_select distinct ..) h ha.mem hb.mem ha.passes hb.passes
    ha.column hb.column

/-- A slot has the style of the label whose bar is in it. -/
theorem slot_iff (distinct : (labels.map (·.order)).Nodup)
    (h : (FileLabels.select sources config labels file).layout.blocks = above ++ block :: below)
    (column : Nat) (style : LabelStyle) :
    block.slots[column]? = some (some style) ↔
      ∃ l, (FileLabels.select sources config labels file).layout.Owner labels above below column l ∧
        l.style = style := by
  obtain ⟨passes, slots, iff⟩ := FileLabels.slots_of_split h
  rw [slots, Connectors.slots_getElem?]
  · constructor
    · rintro ⟨l, hl, passing, own, rfl⟩
      exact ⟨l, ⟨hl, (iff l hl).mp passing, own⟩, rfl⟩
    · rintro ⟨l, ⟨hl, passing, own⟩, rfl⟩
      exact ⟨l, hl, (iff l hl).mpr passing, own, rfl⟩
  · intro a ha b hb passA passB column ownA ownB
    exact unique distinct h ⟨ha, (iff a ha).mp passA, ownA⟩ ⟨hb, (iff b hb).mp passB, ownB⟩

end FileLayout.Owner

/-- The label over several lines has a bar in a column of its own: it is in the slot of
that column at exactly the blocks between its first and its last line. What is in a
slot is the bar of exactly one label, and every row has a slot for every column. -/
theorem connectors_unbroken {sources : Sources} {resolving config : Config} {d : Diagnostic}
    {labels : List (ResolvedLabel Nat)}
    (resolved : d.resolveLabels sources resolving = .ok labels)
    {layout : FileLayout Nat} (hl : layout ∈ layoutLabels sources config labels) :
    (∀ l ∈ layout.own labels, l.isMultiline = true →
      ∃ column < layout.connectorWidth,
        (connectors (layout.own labels)).lookup l.order = some column ∧
        ∀ above block below, layout.blocks = above ++ block :: below →
          (l.Passes above below ↔ block.slots[column]? = some (some l.style) ∧
            ∀ other, layout.Owner labels above below column other → other = l)) ∧
    ∀ above block below, layout.blocks = above ++ block :: below →
      (∀ column style, block.slots[column]? = some (some style) →
        ∃ l, l.style = style ∧
          ∀ other, layout.Owner labels above below column other ↔ other = l) ∧
      block.slots.length = layout.connectorWidth ∧
      ∀ source, block = .source source → ∀ row ∈ source.rows, row.slots = block.slots := by
  obtain ⟨first, _, rfl⟩ := Layout.mem_layoutLabels.mp hl
  have distinct := Diagnostic.nodup_order_of_resolveLabels resolved
  constructor
  · intro l hl multi
    have assigns := Connectors.assigns_connectors
      (FileLabels.nodup_select distinct sources config first.file)
    obtain ⟨column, own⟩ := assigns.known l (List.mem_filter.mpr ⟨hl, multi⟩)
    refine ⟨column, Connectors.lt_width own, own, ?_⟩
    intro above block below h
    constructor
    · intro passes
      have bar : (FileLabels.select sources config labels first.file).layout.Owner labels above
          below column l := ⟨hl, passes, own⟩
      exact ⟨(FileLayout.Owner.slot_iff distinct h column l.style).mpr ⟨l, bar, rfl⟩,
        fun other ho => FileLayout.Owner.unique distinct h ho bar⟩
    · rintro ⟨shown, only⟩
      obtain ⟨other, ho, _⟩ := (FileLayout.Owner.slot_iff distinct h column l.style).mp shown
      exact only other ho ▸ ho.passes
  · intro above block below h
    refine ⟨?_, ?_, ?_⟩
    · intro column style shown
      obtain ⟨l, hl, rfl⟩ := (FileLayout.Owner.slot_iff distinct h column style).mp shown
      refine ⟨l, rfl, ?_⟩
      intro other
      constructor
      · intro ho
        exact FileLayout.Owner.unique distinct h ho hl
      · rintro rfl
        exact hl
    · obtain ⟨passes, slots, _⟩ := FileLabels.slots_of_split h
      rw [slots, Connectors.length_slots]
      rfl
    · rintro source rfl row hr
      have member : .source source ∈
          (FileLabels.select sources config labels first.file).layout.blocks := by rw [h]; simp
      obtain ⟨line, _, rfl⟩ := (FileLabels.source_mem_layout _).mp member
      exact (FileLabels.mem_rows.mp hr).1

theorem connectors_unbroken_sample :
    ∃ labels layout above block below,
      Sample.diagnostic.resolveLabels Sample.store.sources .standard = .ok labels ∧
      layout ∈ layoutLabels Sample.store.sources .standard labels ∧
      layout.blocks = above ++ block :: below ∧ Sample.wholeFound.Passes above below ∧
      ∃ column < layout.connectorWidth, block.slots[column]? = some (some .secondary) := by
  have split : Sample.fileLabels.layout.blocks = [.source (Sample.fileLabels.sourceBlock 1)] ++
      .source (Sample.fileLabels.sourceBlock 2) :: [.source (Sample.fileLabels.sourceBlock 3)] :=
    Sample.blocks
  have passes : Sample.wholeFound.Passes [.source (Sample.fileLabels.sourceBlock 1)]
      [.source (Sample.fileLabels.sourceBlock 3)] := by
    constructor
    · exact List.mem_singleton.mpr rfl
    · exact List.mem_singleton.mpr rfl
  have own : Sample.wholeFound ∈ Sample.fileLabels.layout.own Sample.labels := by decide
  obtain ⟨column, inside, _, bar⟩ :=
    (connectors_unbroken Sample.resolved Sample.layout_mem).1 _ own (by decide)
  exact ⟨_, _, _, _, _, Sample.resolved, Sample.layout_mem, split, passes, column, inside,
    ((bar _ _ _ split).mp passes).1⟩

namespace Sample

/-- Seven lines of one letter each. -/
def sevenLines : Store := .ofList [("f", "a\nb\nc\nd\ne\nf\ng\n")]

/-- Labels on the first three lines and on the last three. -/
def twoBlocks : Diagnostic :=
  ⟨.error, none, "m", [⟨.primary, ⟨(0 : Nat), (0 : Nat), (5 : Nat)⟩, none⟩,
    ⟨.primary, ⟨(0 : Nat), (8 : Nat), (13 : Nat)⟩, none⟩], []⟩

def firstThree : ResolvedLabel Nat := ⟨.primary, none, (0 : Nat), ⟨1, 1⟩, ⟨3, 2⟩, 0⟩

def lastThree : ResolvedLabel Nat := ⟨.primary, none, (0 : Nat), ⟨5, 1⟩, ⟨7, 2⟩, 1⟩

theorem twoBlocks_resolved : twoBlocks.resolveLabels sevenLines.sources .standard =
    .ok [firstThree, lastThree] := by
  decide +kernel

def blockLabels : FileLabels Nat :=
  .select sevenLines.sources .standard [firstThree, lastThree] (0 : Nat)

theorem blockLabels_shown : blockLabels.shown = [1, 2, 3, 5, 6, 7] := by
  have lines : blockLabels.lineCount = 7 := by
    show (sevenLines.sources.lineCount (0 : Nat)).getD 0 = 7
    decide
  rw [FileLabels.shown, lines]
  cbv

theorem own_blockLabels :
    blockLabels.layout.own [firstThree, lastThree] = [firstThree, lastThree] := by
  decide +kernel

/-- The label on the last lines is given the column of the one on the first lines. -/
theorem connectors_twoBlocks : connectors [firstThree, lastThree] = [(0, 0), (1, 0)] := by
  have several : [firstThree, lastThree].filter ResolvedLabel.isMultiline =
      [firstThree, lastThree] := by
    decide
  have sorted : ResolvedLabel.sort [firstThree, lastThree] = [firstThree, lastThree] :=
    List.mergeSort_of_pairwise (by decide)
  rw [connectors, several, sorted]
  decide

end Sample

/-- A column is free again behind the last line of its label, and another label of the same style
may have it there. -/
theorem connector_column_used_again :
    ∃ labels layout above block below,
      Sample.twoBlocks.resolveLabels Sample.sevenLines.sources .standard = .ok labels ∧
      layout ∈ layoutLabels Sample.sevenLines.sources .standard labels ∧
      layout.blocks = above ++ .source block :: below ∧ block.line = 6 ∧
      ∃ l ∈ layout.own labels, l.isMultiline = true ∧ l.stop.line = 3 ∧
        (connectors (layout.own labels)).lookup l.order = some 0 ∧
        block.slots[0]? = some (some l.style) ∧ ¬l.Passes above below := by
  have blocks : Sample.blockLabels.layout.blocks =
      [.source (Sample.blockLabels.sourceBlock 1), .source (Sample.blockLabels.sourceBlock 2),
        .source (Sample.blockLabels.sourceBlock 3), .elided (Sample.blockLabels.slotsBetween 3 5),
        .source (Sample.blockLabels.sourceBlock 5)] ++
      .source (Sample.blockLabels.sourceBlock 6) ::
        [.source (Sample.blockLabels.sourceBlock 7)] := by
    show Sample.blockLabels.blocksAfter none Sample.blockLabels.shown = _
    rw [Sample.blockLabels_shown]
    rfl
  have member : Sample.firstThree ∈
      Sample.blockLabels.layout.own [Sample.firstThree, Sample.lastThree] := by
    rw [Sample.own_blockLabels]
    exact List.mem_cons_self
  have columns : Sample.blockLabels.columns = [(0, 0), (1, 0)] := by
    rw [← Sample.connectors_twoBlocks, ← Sample.own_blockLabels]
    rfl
  refine ⟨_, Sample.blockLabels.layout, _, _, _, Sample.twoBlocks_resolved,
    Layout.mem_layoutLabels.mpr ⟨Sample.firstThree, by simp, rfl⟩, blocks, rfl, Sample.firstThree,
    member, by decide, rfl, ?_, ?_, ?_⟩
  · rw [Sample.own_blockLabels, Sample.connectors_twoBlocks]
    rfl
  · show (Sample.blockLabels.columns.slots Sample.blockLabels.labels _)[0]? = _
    rw [columns]
    decide +kernel
  · rintro ⟨-, last⟩
    exact absurd (List.mem_singleton.mp last) (by decide)

end Excerpt
