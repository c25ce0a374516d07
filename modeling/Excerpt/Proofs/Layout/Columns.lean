import Excerpt.Layout.Connector
import Excerpt.Proofs.Number.Order
import Excerpt.Proofs.Sorting
import Mathlib.Data.List.Perm.Subperm

/-! The columns of connectors. Every label over several lines is given one, and no
label with a line in common is given the same. -/
namespace Excerpt

theorem inOrder_cons (a b : Nat) (keys : List (Nat × Nat)) :
    inOrder ((a, b) :: keys) = true ↔ a < b ∨ a = b ∧ inOrder keys = true := by
  rw [inOrder]
  split
  · simp_all
  · split
    · simp only [Bool.false_eq_true, false_iff]
      omega
    · have same : a = b := by omega
      simp [same]

section

variable {α : Type} [LT α] [DecidableLT α] {a b : α} {keys : List (α × α)}

/-- The first key decides, unless it is the same. -/
theorem not_lt_of_inOrder [LE α] [NatCast α] [LinearCoordinate α]
    (h : inOrder ((a, b) :: keys) = true) : ¬b < a := by
  intro behind
  rw [inOrder, if_neg (LinearCoordinate.not_lt_of_le (LinearCoordinate.le_of_lt behind)),
    if_pos behind] at h
  cases h

theorem not_lt_of_inOrder_eq_false (h : inOrder ((a, b) :: keys) = false) : ¬a < b := by
  intro first
  rw [inOrder, if_pos first] at h
  cases h

end

namespace ResolvedLabel

theorem inOrder_iff (a b : ResolvedLabel Nat) :
    a.inOrder b = true ↔
      a.start.line < b.start.line ∨ a.start.line = b.start.line ∧
        (a.start.column < b.start.column ∨ a.start.column = b.start.column ∧
          (a.style.rank < b.style.rank ∨ a.style.rank = b.style.rank ∧ a.order ≤ b.order)) := by
  have last : Excerpt.inOrder ([] : List (Nat × Nat)) = true := rfl
  simp only [inOrder, inOrder_cons, last, and_true, Nat.cast_id, Nat.le_iff_lt_or_eq]

section

variable {α : Type} [LT α] [DecidableLT α] [NatCast α]

theorem sort_perm (labels : List (ResolvedLabel α)) : (sort labels).Perm labels :=
  List.mergeSort_perm labels inOrder

theorem sort_sorted [LE α] [LinearCoordinate α] {labels : List (ResolvedLabel α)}
    (lined : ∀ l ∈ labels, l.start.line ≤ l.start.line) :
    (sort labels).Pairwise fun a b => a.start.line ≤ b.start.line := by
  apply pairwise_mergeSort_of_mem
  · intro a _ b _ c _
    exact LinearCoordinate.le_trans
  · intro a ha b hb first
    exact LinearCoordinate.le_of_not_lt (lined b hb) (lined a ha) (not_lt_of_inOrder first)
  · intro a ha b hb second
    exact LinearCoordinate.le_of_not_lt (lined a ha) (lined b hb)
      (not_lt_of_inOrder_eq_false second)

end

/-- Two labels have a line in common. -/
def Meets {α : Type} [LE α] (a b : ResolvedLabel α) : Prop :=
  a.start.line ≤ b.stop.line ∧ b.start.line ≤ a.stop.line

end ResolvedLabel

section

variable {α : Type}

/-- The search passes only columns that are in use. -/
theorem freeColumnFrom_passed (occupied : List (Occupied α)) (column fuel : Nat) :
    ∀ passed, column ≤ passed → passed < freeColumnFrom occupied column fuel →
      passed ∈ occupied.map (·.column) := by
  induction fuel generalizing column with
  | zero =>
    intro passed low high
    exact absurd high (Nat.not_lt_of_le low)
  | succ fuel ih =>
    intro passed low high
    rw [freeColumnFrom] at high
    split at high
    · rename_i used
      rcases Nat.eq_or_lt_of_le low with rfl | later
      · obtain ⟨entry, member, here⟩ := List.any_eq_true.mp used
        exact List.mem_map.mpr ⟨entry, member, eq_of_beq here⟩
      · exact ih (column + 1) passed later high
    · exact absurd high (Nat.not_lt_of_le low)

/-- It ends at a column that is not in use, or it runs out of fuel. -/
theorem freeColumnFrom_cases (occupied : List (Occupied α)) (column fuel : Nat) :
    (∀ entry ∈ occupied, entry.column ≠ freeColumnFrom occupied column fuel) ∨
      freeColumnFrom occupied column fuel = column + fuel := by
  induction fuel generalizing column with
  | zero => exact .inr rfl
  | succ fuel ih =>
    rw [freeColumnFrom]
    split
    · rcases ih (column + 1) with free | stop
      · exact .inl free
      · exact .inr (by omega)
    · rename_i unused
      left
      intro entry member same
      apply unused
      exact List.any_eq_true.mpr ⟨entry, member, beq_iff_eq.mpr same⟩

theorem freeColumn_passed {occupied : List (Occupied α)} {column : Nat}
    (h : column < freeColumn occupied) : column ∈ occupied.map (·.column) :=
  freeColumnFrom_passed occupied 0 occupied.length column (Nat.zero_le _) h

theorem freeColumn_unused (occupied : List (Occupied α)) :
    ∀ entry ∈ occupied, entry.column ≠ freeColumn occupied := by
  rcases freeColumnFrom_cases occupied 0 occupied.length with free | stop
  · exact free
  · intro entry member same
    -- The columns in use would be more than there are entries.
    have all : List.range (occupied.length + 1) ⊆ occupied.map (·.column) := by
      intro column hc
      rw [List.mem_range] at hc
      by_cases last : column = freeColumn occupied
      · exact List.mem_map.mpr ⟨entry, member, same.trans last.symm⟩
      · apply freeColumn_passed
        have limit : freeColumn occupied = 0 + occupied.length := stop
        omega
    have count := (List.subperm_of_subset List.nodup_range all).length_le
    rw [List.length_range, List.length_map] at count
    omega

end

variable {α : Type}

section

variable [LE α]

/-- Labels that have been given columns, the last one first, and those still to come: all are told
apart by their orders, and they come in the order of their first lines. -/
structure ResolvedLabel.InTurn (placed rest : List (ResolvedLabel α)) : Prop where
  distinct : ((placed.reverse ++ rest).map (·.order)).Nodup
  sorted : (placed.reverse ++ rest).Pairwise fun a b => a.start.line ≤ b.start.line
  lined : ∀ l ∈ rest, l.start.line ≤ l.start.line

namespace ResolvedLabel.InTurn

variable {placed rest : List (ResolvedLabel α)} {l : ResolvedLabel α}

theorem next (turn : InTurn placed (l :: rest)) : InTurn (l :: placed) rest where
  distinct := by simpa using turn.distinct
  sorted := by simpa using turn.sorted
  lined b hb := turn.lined b (List.mem_cons_of_mem l hb)

theorem fresh (turn : InTurn placed (l :: rest)) : ∀ a ∈ placed, a.order ≠ l.order := by
  intro a ha same
  have apart := turn.distinct
  rw [List.map_append, List.nodup_append] at apart
  exact apart.2.2 a.order (List.mem_map_of_mem (List.mem_reverse.mpr ha)) l.order (by simp) same

theorem earlier (turn : InTurn placed (l :: rest)) : ∀ a ∈ placed, a.start.line ≤ l.start.line := by
  intro a ha
  exact (List.pairwise_append.mp turn.sorted).2.2 a (List.mem_reverse.mpr ha) l List.mem_cons_self

theorem later (turn : InTurn placed (l :: rest)) :
    ∀ b ∈ l :: rest, l.start.line ≤ b.start.line := by
  intro b hb
  rcases List.mem_cons.mp hb with rfl | after
  · exact turn.lined b List.mem_cons_self
  · exact (List.pairwise_cons.mp (List.pairwise_append.mp turn.sorted).2.1).1 b after

/-- The labels over several lines come in turn, however they are listed. -/
theorem of_sort [LT α] [DecidableLT α] [DecidableEq α] [NatCast α] [LinearCoordinate α]
    {labels : List (ResolvedLabel α)} (distinct : (labels.map (·.order)).Nodup)
    (lined : ∀ l ∈ labels, l.start.line ≤ l.start.line) :
    InTurn [] (sort (labels.filter isMultiline)) := by
  have perm := sort_perm (labels.filter isMultiline)
  have own (l : ResolvedLabel α) (hl : l ∈ labels.filter isMultiline) :
      l.start.line ≤ l.start.line := lined l (List.mem_filter.mp hl).1
  refine ⟨?_, sort_sorted own, fun l hl => own l (perm.mem_iff.mp hl)⟩
  exact (perm.map _).nodup_iff.mpr (distinct.sublist (List.filter_sublist.map _))

end ResolvedLabel.InTurn
end

namespace Connectors

section

variable [DecidableEq α]

theorem lookup_set_own (columns : Connectors α) (l : ResolvedLabel α) (column : Nat) :
    (Entries.set columns l.order column).lookup l.order = some column := by
  rw [Entries.lookup_set, if_pos rfl]

theorem lookup_set_fresh {placed : List (ResolvedLabel α)} {l : ResolvedLabel α}
    (fresh : ∀ a ∈ placed, a.order ≠ l.order) (columns : Connectors α) (column : Nat) :
    ∀ a ∈ placed,
      (Entries.set columns l.order column).lookup a.order = columns.lookup a.order := by
  intro a ha
  rw [Entries.lookup_set, if_neg (fresh a ha)]

variable [LE α]

/-- What columns are to labels: each has one, and labels that meet have others. -/
structure Assigns (columns : Connectors α) (labels : List (ResolvedLabel α)) : Prop where
  known : ∀ l ∈ labels, ∃ column, columns.lookup l.order = some column
  apart : ∀ a ∈ labels, ∀ b ∈ labels, a.order ≠ b.order → a.Meets b →
    columns.lookup a.order ≠ columns.lookup b.order

/-- The columns in use are those of the labels that a label still to come may meet. -/
def Holds (occupied : List (Occupied α)) (columns : Connectors α)
    (placed rest : List (ResolvedLabel α)) : Prop :=
  ∀ a ∈ placed, ∀ l ∈ rest, l.start.line ≤ a.stop.line →
    ∃ entry ∈ occupied, columns.lookup a.order = some entry.column ∧ entry.lastLine = a.stop.line

variable {occupied : List (Occupied α)} {columns : Connectors α}
  {placed rest : List (ResolvedLabel α)} {l : ResolvedLabel α}

theorem Holds.lookup_ne (holds : Holds occupied columns placed (l :: rest))
    {a : ResolvedLabel α} (ha : a ∈ placed) (meets : l.start.line ≤ a.stop.line) :
    columns.lookup a.order ≠ some (freeColumn occupied) := by
  intro same
  obtain ⟨entry, used, found, _⟩ := holds a ha l List.mem_cons_self meets
  rw [found, Option.some.injEq] at same
  exact freeColumn_unused occupied entry used same

variable [DecidableLE α] [LT α] [NatCast α] [LinearCoordinate α]

/-- A column whose last line is above the next label is held for no label still to come. -/
theorem Holds.freed (holds : Holds occupied columns placed (l :: rest))
    (later : ∀ b ∈ l :: rest, l.start.line ≤ b.start.line) :
    Holds (occupied.filter fun entry => l.start.line ≤ entry.lastLine) columns placed
      (l :: rest) := by
  intro a ha b hb meets
  obtain ⟨entry, used, found, line⟩ := holds a ha b hb meets
  have reaches : l.start.line ≤ entry.lastLine := by
    rw [line]
    exact LinearCoordinate.le_trans (later b hb) meets
  exact ⟨entry, List.mem_filter.mpr ⟨used, decide_eq_true reaches⟩, found, line⟩

/-- One step: a label is given a column that none of the labels it meets holds. -/
theorem assigns_step (assigns : Assigns columns placed)
    (holds : Holds occupied columns placed (l :: rest))
    (fresh : ∀ a ∈ placed, a.order ≠ l.order)
    (later : ∀ b ∈ l :: rest, l.start.line ≤ b.start.line) :
    let held := occupied.filter fun entry => l.start.line ≤ entry.lastLine
    let column := freeColumn held
    Assigns (Entries.set columns l.order column) (l :: placed) ∧
      Holds (held ++ [⟨column, l.stop.line⟩]) (Entries.set columns l.order column)
        (l :: placed) rest := by
  intro held column
  have kept : Holds held columns placed (l :: rest) := holds.freed later
  have own := lookup_set_own columns l column
  have others := lookup_set_fresh fresh columns column
  refine ⟨⟨?_, ?_⟩, ?_⟩
  · intro a ha
    rcases List.mem_cons.mp ha with rfl | old
    · exact ⟨column, own⟩
    · rw [others a old]
      exact assigns.known a old
  · intro a ha b hb distinct meets
    rcases List.mem_cons.mp ha with rfl | oldA
    · rcases List.mem_cons.mp hb with rfl | oldB
      · exact absurd rfl distinct
      · rw [own, others b oldB]
        exact (kept.lookup_ne oldB meets.1).symm
    · rcases List.mem_cons.mp hb with rfl | oldB
      · rw [own, others a oldA]
        exact kept.lookup_ne oldA meets.2
      · rw [others a oldA, others b oldB]
        exact assigns.apart a oldA b oldB distinct meets
  · intro a ha b hb meets
    rcases List.mem_cons.mp ha with rfl | old
    · exact ⟨⟨column, a.stop.line⟩, by simp, own, rfl⟩
    · obtain ⟨entry, used, found, line⟩ := kept a old b (List.mem_cons_of_mem _ hb) meets
      exact ⟨entry, List.mem_append_left _ used, (others a old).trans found, line⟩

/-- All steps, by induction on the labels that are left. -/
theorem assigns_connectFrom {labels : List (ResolvedLabel α)} (assigns : Assigns columns placed)
    (holds : Holds occupied columns placed labels)
    (turn : ResolvedLabel.InTurn placed labels) :
    Assigns (connectFrom occupied columns labels) (labels.reverse ++ placed) := by
  induction labels generalizing placed occupied columns with
  | nil => exact assigns
  | cons l labels ih =>
    obtain ⟨assigns, holds⟩ := assigns_step assigns holds turn.fresh turn.later
    have next := ih assigns holds turn.next
    rwa [List.reverse_cons, List.append_assoc]

theorem assigns_of_lined [DecidableLT α] {labels : List (ResolvedLabel α)}
    (distinct : (labels.map (·.order)).Nodup)
    (lined : ∀ l ∈ labels, l.start.line ≤ l.start.line) :
    Assigns (connectors labels) (labels.filter ResolvedLabel.isMultiline) := by
  have none_placed : Assigns ([] : Connectors α) [] := ⟨by simp, by simp⟩
  have none_used : Holds [] [] []
      (ResolvedLabel.sort (labels.filter ResolvedLabel.isMultiline)) := by simp [Holds]
  have all := assigns_connectFrom none_placed none_used (.of_sort distinct lined)
  have member {l : ResolvedLabel α} (hl : l ∈ labels.filter ResolvedLabel.isMultiline) :
      l ∈ (ResolvedLabel.sort (labels.filter ResolvedLabel.isMultiline)).reverse ++ [] := by
    rw [List.append_nil, List.mem_reverse]
    exact (ResolvedLabel.sort_perm _).mem_iff.mpr hl
  exact ⟨fun l hl => all.known l (member hl),
    fun a ha b hb => all.apart a (member ha) b (member hb)⟩

end

theorem assigns_connectors {labels : List (ResolvedLabel Nat)}
    (distinct : (labels.map (·.order)).Nodup) :
    Assigns (connectors labels) (labels.filter ResolvedLabel.isMultiline) :=
  assigns_of_lined distinct fun l _ => Nat.le_refl l.start.line

theorem lt_width [DecidableEq α] {columns : Connectors α} {order : α} {column : Nat}
    (h : columns.lookup order = some column) : column < columns.width := by
  have grows (entries : Connectors α) (start : Nat) :
      start ≤ entries.foldl (fun width entry => max width (entry.2 + 1)) start ∧
        ∀ entry ∈ entries,
          entry.2 < entries.foldl (fun width entry => max width (entry.2 + 1)) start := by
    induction entries generalizing start with
    | nil => simp
    | cons first entries ih =>
      obtain ⟨least, covers⟩ := ih (max start (first.2 + 1))
      rw [List.foldl_cons]
      refine ⟨by omega, ?_⟩
      intro entry member
      rcases List.mem_cons.mp member with rfl | old
      · omega
      · exact covers entry old
  obtain ⟨front, back, rfl, _⟩ := List.lookup_eq_some_iff.mp h
  exact (grows _ 0).2 (order, column) (by simp)

@[simp] theorem length_slots (columns : Connectors Nat) (labels : List (ResolvedLabel Nat))
    (passes : ResolvedLabel Nat → Bool) : (columns.slots labels passes).length = columns.width := by
  simp [slots]

section

variable {columns : Connectors Nat} {labels : List (ResolvedLabel Nat)}
  {passes : ResolvedLabel Nat → Bool} {column : Nat} {style : LabelStyle}

/-- The labels that pass, the last one first, by their columns. -/
def barsOf (columns : Connectors Nat) (labels : List (ResolvedLabel Nat))
    (passes : ResolvedLabel Nat → Bool) : List (Nat × LabelStyle) :=
  ((labels.filter passes).filterMap fun l =>
    (columns.lookup l.order).map fun column => (column, l.style)).reverse

theorem mem_barsOf : (column, style) ∈ columns.barsOf labels passes ↔
    ∃ l ∈ labels, passes l = true ∧ columns.lookup l.order = some column ∧ l.style = style := by
  simp only [barsOf, List.mem_reverse, List.mem_filterMap, List.mem_filter, Option.map_eq_some_iff,
    Prod.mk.injEq, and_assoc]
  constructor
  · rintro ⟨l, hl, passing, _, found, rfl, rfl⟩
    exact ⟨l, hl, passing, found, rfl⟩
  · rintro ⟨l, hl, passing, found, rfl⟩
    exact ⟨l, hl, passing, column, found, rfl, rfl⟩

theorem slots_getElem?_eq_lookup : (columns.slots labels passes)[column]? = some (some style) ↔
    column < columns.width ∧ (columns.barsOf labels passes).lookup column = some style := by
  rw [slots, List.getElem?_map, Option.map_eq_some_iff]
  constructor
  · rintro ⟨found, at_column, shown⟩
    obtain ⟨inside, rfl⟩ := List.getElem?_eq_some_iff.mp at_column
    rw [List.length_range] at inside
    rw [List.getElem_range] at shown
    exact ⟨inside, shown⟩
  · rintro ⟨inside, shown⟩
    exact ⟨column, List.getElem?_range inside, shown⟩

theorem mem_of_lookup_barsOf (h : (columns.barsOf labels passes).lookup column = some style) :
    ∃ l ∈ labels, passes l = true ∧ columns.lookup l.order = some column ∧ l.style = style := by
  obtain ⟨front, back, eq, _⟩ := List.lookup_eq_some_iff.mp h
  apply mem_barsOf.mp
  rw [eq]
  simp

/-- Where no two labels that pass have one column, a slot has the style of the label
with its column. -/
theorem slots_getElem? (alone : ∀ a ∈ labels, ∀ b ∈ labels, passes a = true → passes b = true →
      ∀ column, columns.lookup a.order = some column → columns.lookup b.order = some column → a = b)
    (column : Nat) (style : LabelStyle) :
    (columns.slots labels passes)[column]? = some (some style) ↔
      ∃ l ∈ labels, passes l = true ∧ columns.lookup l.order = some column ∧ l.style = style := by
  rw [slots_getElem?_eq_lookup]
  constructor
  · rintro ⟨_, found⟩
    exact mem_of_lookup_barsOf found
  · rintro ⟨l, hl, passing, own, rfl⟩
    refine ⟨lt_width own, ?_⟩
    have present := mem_barsOf.mpr ⟨l, hl, passing, own, rfl⟩
    obtain ⟨style, found⟩ := Option.isSome_iff_exists.mp
      (List.lookup_isSome_iff.mpr ⟨_, present, beq_self_eq_true column⟩)
    obtain ⟨other, ho, through, same, rfl⟩ := mem_of_lookup_barsOf found
    rw [found, alone l hl other ho passing through column own same]

end

end Connectors
end Excerpt
