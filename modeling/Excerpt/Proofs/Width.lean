import Excerpt.Proofs.Layout.Columns
import Mathlib.Data.List.Nodup
import Mathlib.Order.Bounds.Basic

/-! The columns beside the source text are as few as they can be. A new one is opened only for a
label whose first line is touched by a label in every column there is, so there are as many as
there are labels over several lines that share some line. -/
namespace Excerpt

variable {α : Type}

namespace ResolvedLabel

variable [LE α] [DecidableLE α]

/-- A line is one of those a label is on, its first and its last one among them. -/
def touches (l : ResolvedLabel α) (line : α) : Bool := l.start.line ≤ line && line ≤ l.stop.line

theorem touches_iff {l : ResolvedLabel α} {line : α} :
    l.touches line = true ↔ l.start.line ≤ line ∧ line ≤ l.stop.line := by
  rw [touches, Bool.and_eq_true, decide_eq_true_eq, decide_eq_true_eq]

/-- How many labels touch a line. -/
def touching (labels : List (ResolvedLabel α)) (line : α) : Nat :=
  labels.countP fun l => l.touches line

theorem meets_of_touches [LT α] [NatCast α] [LinearCoordinate α] {a b : ResolvedLabel α} {line : α}
    (ha : a.touches line = true) (hb : b.touches line = true) : a.Meets b := by
  obtain ⟨startA, stopA⟩ := touches_iff.mp ha
  obtain ⟨startB, stopB⟩ := touches_iff.mp hb
  exact ⟨LinearCoordinate.le_trans startA stopB, LinearCoordinate.le_trans startB stopA⟩

theorem touching_perm {labels others : List (ResolvedLabel α)} (perm : others.Perm labels) :
    touching others = touching labels :=
  funext fun _ => perm.countP_eq _

end ResolvedLabel

namespace Connectors

open ResolvedLabel (touching InTurn)

theorem width_append (columns : Connectors α) (order : α) (column : Nat) :
    width (columns ++ [(order, column)]) = max columns.width (column + 1) := by
  rw [width, List.foldl_append]
  rfl

variable [DecidableEq α] {columns : Connectors α} {placed labels : List (ResolvedLabel α)}
  {l : ResolvedLabel α}

theorem set_eq_append (fresh : ∀ entry ∈ columns, entry.1 ≠ l.order) (column : Nat) :
    Entries.set columns l.order column = columns ++ [(l.order, column)] := by
  induction columns with
  | nil => rfl
  | cons entry columns ih =>
    obtain ⟨own, others⟩ := List.forall_mem_cons.mp fresh
    rw [Entries.set, if_neg own, ih others, List.cons_append]

variable [LE α] [DecidableLE α]

/-- The columns of the labels that touch a line. -/
def columnsAt (columns : Connectors α) (labels : List (ResolvedLabel α)) (line : α) :
    List (Option Nat) :=
  (labels.filter fun l => l.touches line).map fun l => columns.lookup l.order

theorem length_columnsAt (columns : Connectors α) (labels : List (ResolvedLabel α)) (line : α) :
    (columns.columnsAt labels line).length = touching labels line := by
  rw [columnsAt, List.length_map, touching, List.countP_eq_length_filter]

/-- Columns that labels on a line have are no more than these labels. -/
theorem le_touching {count : Nat} {line : α}
    (held : ∀ column < count, some column ∈ columns.columnsAt labels line) :
    count ≤ touching labels line := by
  have all : (List.range count).map some ⊆ columns.columnsAt labels line := by
    intro entry member
    obtain ⟨column, inside, rfl⟩ := List.mem_map.mp member
    exact held column (List.mem_range.mp inside)
  have different : ((List.range count).map some).Nodup :=
    List.Nodup.map (Option.some_injective Nat) List.nodup_range
  have many := (List.subperm_of_subset different all).length_le
  rwa [List.length_map, List.length_range, length_columnsAt] at many

/-- Columns in use from the first on, no more of them than labels on some line; and the columns
that are held are those of labels, up to their last lines. -/
structure Narrow (occupied : List (Occupied α)) (columns : Connectors α)
    (placed : List (ResolvedLabel α)) : Prop where
  keys : columns.map (·.1) = (placed.map (·.order)).reverse
  owned : ∀ entry ∈ occupied, ∃ a ∈ placed,
    columns.lookup a.order = some entry.column ∧ a.stop.line = entry.lastLine
  used : ∀ column < columns.width, ∃ a ∈ placed, columns.lookup a.order = some column
  crowded : ∃ line, columns.width ≤ touching placed line

variable {occupied : List (Occupied α)}

theorem Narrow.fresh (narrow : Narrow occupied columns placed)
    (fresh : ∀ a ∈ placed, a.order ≠ l.order) : ∀ entry ∈ columns, entry.1 ≠ l.order := by
  intro entry member
  have key : entry.1 ∈ columns.map (·.1) := List.mem_map_of_mem member
  rw [narrow.keys, List.mem_reverse] at key
  obtain ⟨a, ha, same⟩ := List.mem_map.mp key
  exact same ▸ fresh a ha

/-- The columns before the free one are held for labels that touch the line. -/
theorem Narrow.held (narrow : Narrow occupied columns placed)
    (earlier : ∀ a ∈ placed, a.start.line ≤ l.start.line) {column : Nat}
    (passed : column < freeColumn (occupied.filter fun entry => l.start.line ≤ entry.lastLine)) :
    ∃ a ∈ placed, a.touches l.start.line = true ∧ columns.lookup a.order = some column := by
  obtain ⟨entry, member, rfl⟩ := List.mem_map.mp (freeColumn_passed passed)
  obtain ⟨inside, reaches⟩ := List.mem_filter.mp member
  obtain ⟨a, ha, own, line⟩ := narrow.owned entry inside
  refine ⟨a, ha, ResolvedLabel.touches_iff.mpr ⟨earlier a ha, ?_⟩, own⟩
  rw [line]
  exact of_decide_eq_true reaches

variable [LT α] [NatCast α] [LinearCoordinate α]

/-- Labels on a line have different columns, so they are no more than there are columns. -/
theorem touching_le_width (assigns : Assigns columns labels)
    (distinct : (labels.map (·.order)).Nodup) (line : α) :
    touching labels line ≤ columns.width := by
  have different : (columns.columnsAt labels line).Nodup := by
    apply List.Nodup.map_on
    · intro a ha b hb same
      obtain ⟨memA, hereA⟩ := List.mem_filter.mp ha
      obtain ⟨memB, hereB⟩ := List.mem_filter.mp hb
      by_contra other
      have apart : a.order ≠ b.order := fun order =>
        other (List.inj_on_of_nodup_map distinct memA memB order)
      exact assigns.apart a memA b memB apart (ResolvedLabel.meets_of_touches hereA hereB) same
    · exact (List.Nodup.of_map _ distinct).sublist List.filter_sublist
  have all : columns.columnsAt labels line ⊆ (List.range columns.width).map some := by
    intro entry member
    obtain ⟨l, inside, rfl⟩ := List.mem_map.mp member
    obtain ⟨column, own⟩ := assigns.known l (List.mem_filter.mp inside).1
    rw [own]
    exact List.mem_map_of_mem (List.mem_range.mpr (lt_width own))
  have many := (List.subperm_of_subset different all).length_le
  rwa [List.length_map, List.length_range, length_columnsAt] at many

/-- One step: a column is added only if all others are held for labels on the first line of the
new one. -/
theorem Narrow.step (narrow : Narrow occupied columns placed)
    (fresh : ∀ a ∈ placed, a.order ≠ l.order)
    (earlier : ∀ a ∈ placed, a.start.line ≤ l.start.line) (upright : l.start.line ≤ l.stop.line) :
    let held := occupied.filter fun entry => l.start.line ≤ entry.lastLine
    let column := freeColumn held
    Narrow (held ++ [⟨column, l.stop.line⟩]) (Entries.set columns l.order column)
      (l :: placed) := by
  intro held column
  have own := lookup_set_own columns l column
  have others := lookup_set_fresh fresh columns column
  have appended := set_eq_append (narrow.fresh fresh) column
  have width : width (Entries.set columns l.order column) = max columns.width (column + 1) := by
    rw [appended, width_append]
  have below (other : Nat) (passed : other < column) :
      ∃ a ∈ placed, a.touches l.start.line = true ∧ columns.lookup a.order = some other :=
    narrow.held earlier passed
  have column_le : column ≤ columns.width := by
    by_contra wider
    obtain ⟨a, _, _, found⟩ := below columns.width (by omega)
    exact absurd (lt_width found) (Nat.lt_irrefl _)
  refine ⟨?_, ?_, ?_, ?_⟩
  · rw [appended, List.map_append, narrow.keys, List.map_cons (l := placed), List.reverse_cons]
    rfl
  · intro entry member
    rcases List.mem_append.mp member with old | new
    · obtain ⟨a, ha, found, line⟩ := narrow.owned entry (List.mem_filter.mp old).1
      exact ⟨a, List.mem_cons_of_mem l ha, (others a ha).trans found, line⟩
    · rw [List.mem_singleton.mp new]
      exact ⟨l, List.mem_cons_self, own, rfl⟩
  · intro other inside
    by_cases new : other = column
    · exact ⟨l, List.mem_cons_self, new ▸ own⟩
    · obtain ⟨a, ha, found⟩ := narrow.used other (by omega)
      exact ⟨a, List.mem_cons_of_mem l ha, (others a ha).trans found⟩
  · rw [width]
    by_cases wider : column < columns.width
    · obtain ⟨line, many⟩ := narrow.crowded
      have more : touching placed line ≤ touching (l :: placed) line :=
        (List.sublist_cons_self l placed).countP_le
      exact ⟨line, by omega⟩
    · refine ⟨l.start.line, ?_⟩
      have each : ∀ other < column, some other ∈ columns.columnsAt placed l.start.line := by
        intro other passed
        obtain ⟨a, ha, here, found⟩ := below other passed
        exact List.mem_map.mpr ⟨a, List.mem_filter.mpr ⟨ha, here⟩, found⟩
      have many : column ≤ touching placed l.start.line := le_touching each
      have here : l.touches l.start.line = true := ResolvedLabel.touches_iff.mpr
        ⟨(LinearCoordinate.placed upright).1, upright⟩
      have next : touching (l :: placed) l.start.line = touching placed l.start.line + 1 :=
        List.countP_cons_of_pos here
      omega

/-- All steps, by induction on the labels that are left. -/
theorem Narrow.connectFrom (narrow : Narrow occupied columns placed) (turn : InTurn placed labels)
    (upright : ∀ l ∈ labels, l.start.line ≤ l.stop.line) :
    ∃ held, Narrow held (connectFrom occupied columns labels) (labels.reverse ++ placed) := by
  induction labels generalizing placed occupied columns with
  | nil => exact ⟨occupied, narrow⟩
  | cons l labels ih =>
    obtain ⟨own, others⟩ := List.forall_mem_cons.mp upright
    have next := ih (narrow.step turn.fresh turn.earlier own) turn.next others
    rwa [List.reverse_cons, List.append_assoc]

variable [DecidableLT α]

theorem narrow_connectors (distinct : (labels.map (·.order)).Nodup)
    (upright : ∀ l ∈ labels, l.start.line ≤ l.stop.line) :
    ∃ held, Narrow held (connectors labels)
      (ResolvedLabel.sort (labels.filter ResolvedLabel.isMultiline)).reverse := by
  have none_placed : Narrow [] ([] : Connectors α) [] :=
    ⟨rfl, by simp, fun _ inside => absurd inside (Nat.not_lt_zero _),
      ((0 : Nat) : α), Nat.zero_le _⟩
  have lined (l : ResolvedLabel α) (hl : l ∈ labels) : l.start.line ≤ l.start.line :=
    (LinearCoordinate.placed (upright l hl)).1
  have all := none_placed.connectFrom (.of_sort distinct lined) fun l hl =>
    upright l (List.mem_filter.mp ((ResolvedLabel.sort_perm _).mem_iff.mp hl)).1
  rwa [List.append_nil] at all

/-- There are as many columns as there are labels over several lines on the fullest line. -/
theorem width_isGreatest (distinct : (labels.map (·.order)).Nodup)
    (upright : ∀ l ∈ labels, l.start.line ≤ l.stop.line) :
    IsGreatest (Set.range (touching (labels.filter ResolvedLabel.isMultiline)))
      (connectors labels).width := by
  obtain ⟨held, narrow⟩ := narrow_connectors distinct upright
  have assigns := assigns_of_lined distinct fun l hl => (LinearCoordinate.placed (upright l hl)).1
  have limit := touching_le_width assigns (distinct.sublist (List.filter_sublist.map _))
  constructor
  · obtain ⟨line, many⟩ := narrow.crowded
    rw [ResolvedLabel.touching_perm ((List.reverse_perm _).trans (ResolvedLabel.sort_perm _))]
      at many
    exact ⟨line, Nat.le_antisymm (limit line) many⟩
  · rintro _ ⟨line, rfl⟩
    exact limit line

/-- The labels with columns are those over several lines. -/
theorem keys_connectors (distinct : (labels.map (·.order)).Nodup)
    (upright : ∀ l ∈ labels, l.start.line ≤ l.stop.line) :
    ((connectors labels).map (·.1)).Perm
      ((labels.filter ResolvedLabel.isMultiline).map (·.order)) := by
  obtain ⟨held, narrow⟩ := narrow_connectors distinct upright
  rw [narrow.keys, List.map_reverse, List.reverse_reverse]
  exact (ResolvedLabel.sort_perm _).map _

theorem known_iff (distinct : (labels.map (·.order)).Nodup)
    (upright : ∀ l ∈ labels, l.start.line ≤ l.stop.line) (hl : l ∈ labels) :
    (∃ column, (connectors labels).lookup l.order = some column) ↔ l.isMultiline = true := by
  constructor
  · rintro ⟨column, own⟩
    obtain ⟨front, back, eq, _⟩ := List.lookup_eq_some_iff.mp own
    have key : l.order ∈ (connectors labels).map (·.1) :=
      List.mem_map.mpr ⟨(l.order, column), by simp [eq], rfl⟩
    obtain ⟨m, member, same⟩ := List.mem_map.mp ((keys_connectors distinct upright).mem_iff.mp key)
    obtain ⟨hm, long⟩ := List.mem_filter.mp member
    exact List.inj_on_of_nodup_map distinct hm hl same ▸ long
  · intro long
    exact (assigns_of_lined distinct fun l hl => (LinearCoordinate.placed (upright l hl)).1).known l
      (List.mem_filter.mpr ⟨hl, long⟩)

/-- No column is skipped. -/
theorem used_iff (distinct : (labels.map (·.order)).Nodup)
    (upright : ∀ l ∈ labels, l.start.line ≤ l.stop.line) (column : Nat) :
    (∃ l ∈ labels, (connectors labels).lookup l.order = some column) ↔
      column < (connectors labels).width := by
  constructor
  · rintro ⟨l, _, own⟩
    exact lt_width own
  · intro inside
    obtain ⟨held, narrow⟩ := narrow_connectors distinct upright
    obtain ⟨l, hl, own⟩ := narrow.used column inside
    have member := (ResolvedLabel.sort_perm _).mem_iff.mp (List.mem_reverse.mp hl)
    exact ⟨l, (List.mem_filter.mp member).1, own⟩

end Connectors

open Connectors ResolvedLabel

variable [DecidableEq α] [LE α] [DecidableLE α] [LT α] [DecidableLT α] [NatCast α]
  [LinearCoordinate α] {labels : List (ResolvedLabel α)}

/-- Exactly the labels over several lines have columns, and no two that touch one line have the
same. The columns are those from the first on, as many as labels over several lines that touch
some line; so in whatever order the labels are listed, there are as many. -/
theorem connector_columns_fewest (distinct : (labels.map (·.order)).Nodup)
    (upright : ∀ l ∈ labels, l.start.line ≤ l.stop.line) :
    ((connectors labels).map (·.1)).Perm ((labels.filter isMultiline).map (·.order)) ∧
    (∀ l ∈ labels,
      (∃ column, (connectors labels).lookup l.order = some column) ↔ l.isMultiline = true) ∧
    (∀ a ∈ labels, ∀ b ∈ labels, a ≠ b → a.isMultiline = true → b.isMultiline = true →
      ∀ line, a.touches line = true → b.touches line = true →
        (connectors labels).lookup a.order ≠ (connectors labels).lookup b.order) ∧
    (∀ column, (∃ l ∈ labels, (connectors labels).lookup l.order = some column) ↔
      column < (connectors labels).width) ∧
    ((∃ l ∈ labels, l.isMultiline = true) →
      ∃ last, IsGreatest {column | ∃ l ∈ labels, (connectors labels).lookup l.order = some column}
        last ∧ last + 1 = (connectors labels).width) ∧
    IsGreatest (Set.range (touching (labels.filter isMultiline))) (connectors labels).width ∧
    ∀ others : List (ResolvedLabel α), others.Perm labels →
      (connectors others).width = (connectors labels).width := by
  have assigns := assigns_of_lined distinct fun l hl => (LinearCoordinate.placed (upright l hl)).1
  have columns := used_iff distinct upright
  have greatest := width_isGreatest distinct upright
  refine ⟨keys_connectors distinct upright, fun l hl => known_iff distinct upright hl, ?_, columns,
    ?_, greatest, ?_⟩
  · intro a ha b hb other longA longB line hereA hereB
    have apart : a.order ≠ b.order := fun order =>
      other (List.inj_on_of_nodup_map distinct ha hb order)
    exact assigns.apart a (List.mem_filter.mpr ⟨ha, longA⟩) b (List.mem_filter.mpr ⟨hb, longB⟩)
      apart (meets_of_touches hereA hereB)
  · rintro ⟨l, hl, long⟩
    obtain ⟨column, own⟩ := (known_iff distinct upright hl).mpr long
    have inside := lt_width own
    refine ⟨(connectors labels).width - 1, ⟨(columns _).mpr (by omega), ?_⟩, by omega⟩
    intro other used
    have below := (columns other).mp used
    omega
  · intro others perm
    have same := width_isGreatest ((perm.map _).nodup_iff.mpr distinct) fun l hl =>
      upright l (perm.mem_iff.mp hl)
    rw [touching_perm (perm.filter _)] at same
    exact same.unique greatest

namespace Sample

/-- A label that starts inside the one before it and ends behind it, one that starts when the
first is over, and one on a single line. -/
def crossing : List (ResolvedLabel Nat) :=
  [⟨.secondary, none, 0, ⟨4, 1⟩, ⟨5, 2⟩, 0⟩, ⟨.primary, none, 0, ⟨1, 1⟩, ⟨3, 2⟩, 1⟩,
    ⟨.secondary, none, 0, ⟨2, 1⟩, ⟨6, 1⟩, 2⟩, ⟨.secondary, none, 0, ⟨5, 1⟩, ⟨5, 2⟩, 3⟩]

end Sample

theorem connector_columns_fewest_sample :
    (Sample.crossing.map (·.order)).Nodup ∧
      (∀ l ∈ Sample.crossing, l.start.line ≤ l.stop.line) ∧
      IsGreatest (Set.range (touching (Sample.crossing.filter isMultiline))) 2 ∧
      ∀ others : List (ResolvedLabel Nat), others.Perm Sample.crossing →
        (connectors others).width = 2 := by
  have distinct : (Sample.crossing.map (·.order)).Nodup := by decide
  have upright : ∀ l ∈ Sample.crossing, l.start.line ≤ l.stop.line := by decide
  have width : (connectors Sample.crossing).width = 2 := by
    have sorted : ResolvedLabel.sort (Sample.crossing.filter isMultiline) =
        [⟨.primary, none, 0, ⟨1, 1⟩, ⟨3, 2⟩, 1⟩, ⟨.secondary, none, 0, ⟨2, 1⟩, ⟨6, 1⟩, 2⟩,
          ⟨.secondary, none, 0, ⟨4, 1⟩, ⟨5, 2⟩, 0⟩] := by
      have long : Sample.crossing.filter isMultiline = Sample.crossing.take 3 := by decide
      rw [long]
      simp [Sample.crossing, ResolvedLabel.sort, List.mergeSort,
        List.MergeSort.Internal.splitInTwo, ResolvedLabel.inOrder, inOrder]
    rw [connectors, sorted]
    decide
  obtain ⟨_, _, _, _, _, greatest, alike⟩ := connector_columns_fewest distinct upright
  rw [width] at greatest alike
  exact ⟨distinct, upright, greatest, alike⟩

end Excerpt
