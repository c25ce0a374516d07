import Excerpt.Proofs.Layout.Rows
import Excerpt.Proofs.Number.Order
import Excerpt.Proofs.Sorting
import Mathlib.Algebra.Order.BigOperators.Group.List
import Mathlib.Algebra.Order.Group.Nat
import Mathlib.Order.Bounds.Basic

/-! Rows are packed as tightly as they can be. A new row is opened only for a marker that shares
its first column with a marker of every row there is, so there are as many rows as there are
markers on the fullest column. -/
namespace Excerpt

section

variable {α : Type} [LT α] [LE α] [NatCast α] [LinearCoordinate α]

theorem inOrder_eq_false_iff [DecidableLT α] {a b : α} {keys : List (α × α)} :
    inOrder ((b, a) :: keys) = false ↔ a < b ∨ (¬a < b ∧ ¬b < a) ∧ inOrder keys = false := by
  rw [inOrder]
  split
  · rename_i behind
    simp [behind, LinearCoordinate.not_lt_of_le (LinearCoordinate.le_of_lt behind)]
  · split <;> simp_all

namespace Marker

/-- The keys of a marker come before those of another: its column, its style, and its order. -/
def Precedes (a b : Marker α) : Prop :=
  a.start < b.start ∨ a.start = b.start ∧
    (a.style.rank < b.style.rank ∨ a.style.rank = b.style.rank ∧ a.order < b.order)

variable {a b c m : Marker α}

theorem Precedes.trans (hab : a.Precedes b) (hbc : b.Precedes c) : a.Precedes c := by
  rcases hab with start | ⟨start, rest⟩
  · rcases hbc with next | ⟨next, _⟩
    · exact .inl (LinearCoordinate.lt_trans start next)
    · exact .inl (next ▸ start)
  · rcases hbc with next | ⟨next, last⟩
    · exact .inl (start ▸ next)
    · refine .inr ⟨start.trans next, ?_⟩
      rcases rest with style | ⟨style, order⟩
      · rcases last with style' | ⟨style', _⟩
        · exact .inl (Nat.lt_trans style style')
        · exact .inl (style' ▸ style)
      · rcases last with style' | ⟨style', order'⟩
        · exact .inl (style ▸ style')
        · exact .inr ⟨style.trans style', LinearCoordinate.lt_trans order order'⟩

theorem Precedes.start_le (h : a.Precedes b) (ha : a.start ≤ a.start) : a.start ≤ b.start := by
  rcases h with before | ⟨same, _⟩
  · exact LinearCoordinate.le_of_lt before
  · exact same ▸ ha

theorem start_placed (h : m.start < m.stop) : m.start ≤ m.start :=
  (LinearCoordinate.placed (LinearCoordinate.le_of_lt h)).1

/-- The first key that differs decides. -/
theorem inOrder_eq_false_iff [DecidableLT α] (ha : a.start ≤ a.start) (hb : b.start ≤ b.start) :
    b.inOrder a = false ↔ a.Precedes b := by
  have no_key : Excerpt.inOrder ([] : List (α × α)) = true := rfl
  simp only [inOrder, Excerpt.inOrder_eq_false_iff, no_key, Bool.true_eq_false, and_false, or_false,
    LinearCoordinate.natCast_lt, ← LinearCoordinate.eq_iff_not_lt ha hb,
    ← LinearCoordinate.eq_iff_not_lt (Nat.le_refl a.style.rank) (Nat.le_refl b.style.rank),
    Precedes]

theorem Precedes.irrefl (a : Marker α) : ¬a.Precedes a := by
  rintro (start | ⟨_, style | ⟨_, order⟩⟩)
  · exact LinearCoordinate.lt_irrefl _ start
  · exact Nat.lt_irrefl _ style
  · exact LinearCoordinate.lt_irrefl _ order

/-- No key tells two markers apart. An order that is undefined is neither before nor behind
another. -/
def Tied (a b : Marker α) : Prop :=
  a.start = b.start ∧ a.style = b.style ∧ ¬a.order < b.order ∧ ¬b.order < a.order

section

variable [DecidableLT α] {markers others : List (Marker α)}

theorem inOrder_of_inOrder_eq_false (ha : a.start ≤ a.start) (hb : b.start ≤ b.start)
    (h : a.inOrder b = false) : b.inOrder a = true := by
  have first : b.Precedes a := (inOrder_eq_false_iff hb ha).mp h
  rw [← Bool.not_eq_false, inOrder_eq_false_iff ha hb]
  intro second
  exact Precedes.irrefl a (second.trans first)

theorem tied_of_inOrder (ha : a.start ≤ a.start) (hb : b.start ≤ b.start)
    (hab : a.inOrder b = true) (hba : b.inOrder a = true) : a.Tied b := by
  rw [← Bool.not_eq_false, inOrder_eq_false_iff hb ha] at hab
  rw [← Bool.not_eq_false, inOrder_eq_false_iff ha hb] at hba
  have start : a.start = b.start := (LinearCoordinate.eq_iff_not_lt ha hb).mpr
    ⟨fun lt => hba (.inl lt), fun lt => hab (.inl lt)⟩
  have rank : a.style.rank = b.style.rank := Nat.le_antisymm
    (Nat.le_of_not_lt fun lt => hab (.inr ⟨start.symm, .inl lt⟩))
    (Nat.le_of_not_lt fun lt => hba (.inr ⟨start, .inl lt⟩))
  refine ⟨start, ?_, ?_, ?_⟩
  · cases ha : a.style <;> cases hb : b.style <;> simp_all [LabelStyle.rank]
  · intro lt
    exact hba (.inr ⟨start, .inr ⟨rank, lt⟩⟩)
  · intro lt
    exact hab (.inr ⟨start.symm, .inr ⟨rank.symm, lt⟩⟩)

theorem sort_starts (proper : ∀ m ∈ markers, m.start < m.stop) :
    (sort markers).Pairwise fun a b => a.start ≤ b.start := by
  have placed (m : Marker α) (hm : m ∈ markers) : m.start ≤ m.start := start_placed (proper m hm)
  apply pairwise_mergeSort_of_mem
  · intro a _ b _ c _
    exact LinearCoordinate.le_trans
  · intro a ha b hb ab
    apply LinearCoordinate.le_of_not_lt (placed b hb) (placed a ha)
    intro before
    have behind := (inOrder_eq_false_iff (placed b hb) (placed a ha)).mpr (.inl before)
    rw [ab] at behind
    cases behind
  · intro a ha b hb ab
    exact ((inOrder_eq_false_iff (placed b hb) (placed a ha)).mp ab).start_le (placed b hb)

/-- Markers are sorted alike in every order they come in, unless two of them are tied. -/
theorem sort_eq_of_perm (proper : ∀ m ∈ markers, m.start < m.stop)
    (untied : ∀ a ∈ markers, ∀ b ∈ markers, a.Tied b → a = b) (perm : others.Perm markers) :
    sort others = sort markers := by
  have placed (m : Marker α) (hm : m ∈ markers) : m.start ≤ m.start := start_placed (proper m hm)
  have same (a : Marker α) (ha : a ∈ markers) (b : Marker α) (hb : b ∈ markers)
      (ab : a.inOrder b = true) (ba : b.inOrder a = true) : a = b :=
    untied a ha b hb (tied_of_inOrder (placed a ha) (placed b hb) ab ba)
  have first (a : Marker α) (ha : a ∈ markers) (b : Marker α) (hb : b ∈ markers) (apart : a ≠ b)
      (ab : a.inOrder b = true) : a.Precedes b := by
    apply (inOrder_eq_false_iff (placed a ha) (placed b hb)).mp
    rw [← Bool.not_eq_true]
    intro ba
    exact apart (same a ha b hb ab ba)
  symm
  apply mergeSort_eq_of_perm perm.symm
  -- Orders that are undefined are tied with all others, so ties do not chain: only markers
  -- that are told apart do.
  · intro a ha b hb c hc ab bc
    by_cases left : a = b
    · exact left ▸ bc
    by_cases right : b = c
    · exact right ▸ ab
    have around := (first a ha b hb left ab).trans (first b hb c hc right bc)
    apply inOrder_of_inOrder_eq_false (placed c hc) (placed a ha)
    exact (inOrder_eq_false_iff (placed a ha) (placed c hc)).mpr around
  · intro a ha b hb
    exact inOrder_of_inOrder_eq_false (placed a ha) (placed b hb)
  · exact same

end

end Marker
end

variable {α : Type}

section

variable [LE α] [DecidableLE α] {m : Marker α} {row : List (Marker α)}
  {rows : List (List (Marker α))}

/-- A marker is put behind a row it fits on, or on a row of its own. -/
theorem mem_placeMarker (h : row ∈ placeMarker m rows) :
    row ∈ rows ∨ (∃ old ∈ rows, m.fitsBehind old = true ∧ row = old ++ [m]) ∨ row = [m] := by
  induction rows with
  | nil => exact .inr (.inr (List.mem_singleton.mp h))
  | cons first rows ih =>
    rw [placeMarker] at h
    split at h
    · rename_i fits
      rcases List.mem_cons.mp h with rfl | old
      · exact .inr (.inl ⟨first, List.mem_cons_self, fits, rfl⟩)
      · exact .inl (List.mem_cons_of_mem first old)
    · rcases List.mem_cons.mp h with rfl | later
      · exact .inl List.mem_cons_self
      · rcases ih later with old | ⟨old, ho, fits, next⟩ | new
        · exact .inl (List.mem_cons_of_mem first old)
        · exact .inr (.inl ⟨old, List.mem_cons_of_mem first ho, fits, next⟩)
        · exact .inr (.inr new)

/-- A row is added only if the marker fits on none. -/
theorem length_placeMarker (m : Marker α) (rows : List (List (Marker α))) :
    (placeMarker m rows).length = rows.length ∨
      (∀ row ∈ rows, m.fitsBehind row = false) ∧ (placeMarker m rows).length = rows.length + 1 := by
  induction rows with
  | nil => exact .inr ⟨by simp, rfl⟩
  | cons first rows ih =>
    rw [placeMarker]
    split
    · exact .inl rfl
    · rename_i full
      rw [List.length_cons, List.length_cons]
      rcases ih with same | ⟨all_full, more⟩
      · exact .inl (congrArg Nat.succ same)
      · refine .inr ⟨?_, congrArg Nat.succ more⟩
        intro row hrow
        rcases List.mem_cons.mp hrow with rfl | later
        · exact Bool.eq_false_iff.mpr full
        · exact all_full row later

end

variable [LT α] [DecidableLT α] [LE α] [DecidableLE α]

/-- A marker takes up a column. -/
def Marker.covers (m : Marker α) (column : α) : Bool := m.start ≤ column && column < m.stop

/-- How many markers share a column. -/
def sharing (markers : List (Marker α)) (column : α) : Nat :=
  markers.countP fun m => m.covers column

theorem sharing_perm {markers others : List (Marker α)} (perm : others.Perm markers) (column : α) :
    sharing others column = sharing markers column :=
  perm.countP_eq _

theorem sharing_flatten (rows : List (List (Marker α))) (column : α) :
    sharing rows.flatten column = (rows.map (sharing · column)).sum :=
  List.countP_flatten

/-- Rows that hold some markers without overlap, no more of them than markers share some column. -/
structure Packed (markers : List (Marker α)) (rows : List (List (Marker α))) : Prop where
  held : rows.flatten.Perm markers
  filled : ∀ row ∈ rows, row ≠ []
  apart : ∀ row ∈ rows, row.Pairwise fun a b => a.stop ≤ b.start
  full : ∃ column, rows.length ≤ sharing markers column

section

variable [NatCast α] [LinearCoordinate α] {m : Marker α} {row markers placed : List (Marker α)}
  {rows : List (List (Marker α))}

theorem covers_start (wide : m.start < m.stop) : m.covers m.start = true := by
  rw [Marker.covers, Bool.and_eq_true, decide_eq_true_eq, decide_eq_true_eq]
  exact ⟨Marker.start_placed wide, wide⟩

/-- A row that a marker does not fit on has a marker that covers its first column. -/
theorem one_le_sharing (filled : row ≠ []) (wide : ∀ a ∈ row, a.start < a.stop)
    (wide_m : m.start < m.stop) (behind : ∀ a ∈ row, a.start ≤ m.start)
    (full : m.fitsBehind row = false) : 1 ≤ sharing row m.start := by
  rcases List.eq_nil_or_concat' row with rfl | ⟨front, last, rfl⟩
  · exact absurd rfl filled
  have member : last ∈ front ++ [last] := by simp
  have reaches : ¬last.stop ≤ m.start := by simpa [Marker.fitsBehind] using full
  have ends : m.start < last.stop := LinearCoordinate.lt_of_not_le
    (LinearCoordinate.placed (LinearCoordinate.le_of_lt (wide last member))).2
    (Marker.start_placed wide_m) reaches
  apply List.one_le_countP_iff.mpr
  refine ⟨last, member, ?_⟩
  rw [Marker.covers, Bool.and_eq_true, decide_eq_true_eq, decide_eq_true_eq]
  exact ⟨behind last member, ends⟩

/-- The markers of a row have no column in common. -/
theorem sharing_le_one (apart : row.Pairwise fun a b => a.stop ≤ b.start)
    (column : α) : sharing row column ≤ 1 := by
  induction row with
  | nil => exact Nat.zero_le 1
  | cons a row ih =>
    obtain ⟨later, apart⟩ := List.pairwise_cons.mp apart
    rw [sharing, List.countP_cons]
    split
    · rename_i here
      rw [Marker.covers, Bool.and_eq_true, decide_eq_true_eq, decide_eq_true_eq] at here
      have none_else : row.countP (fun m => m.covers column) = 0 := by
        rw [List.countP_eq_zero]
        intro b hb
        rw [Marker.covers, Bool.and_eq_true, decide_eq_true_eq]
        intro there
        exact LinearCoordinate.not_lt_of_le
          (LinearCoordinate.le_trans (later b hb) there.1) here.2
      rw [none_else]
    · exact ih apart

theorem Packed.place (packed : Packed placed rows) (wide : ∀ a ∈ placed, a.start < a.stop)
    (wide_m : m.start < m.stop) (behind : ∀ a ∈ placed, a.start ≤ m.start) :
    Packed (m :: placed) (placeMarker m rows) := by
  have own {row : List (Marker α)} (hrow : row ∈ rows) {a : Marker α} (ha : a ∈ row) : a ∈ placed :=
    packed.held.mem_iff.mp (List.mem_flatten.mpr ⟨row, hrow, ha⟩)
  refine ⟨(flatten_placeMarker m rows).trans (packed.held.cons m), ?_, ?_, ?_⟩
  · intro row hrow
    rcases mem_placeMarker hrow with old | ⟨old, _, _, rfl⟩ | rfl
    · exact packed.filled row old
    · simp
    · simp
  · intro row hrow
    rcases mem_placeMarker hrow with old | ⟨old, ho, fits, rfl⟩ | rfl
    · exact packed.apart row old
    · exact apart_of_fitsBehind (packed.apart old ho) (fun a ha => wide a (own ho ha)) fits
    · exact List.pairwise_singleton _ m
  · have more (column : α) : sharing placed column ≤ sharing (m :: placed) column :=
      (List.sublist_cons_self m placed).countP_le
    rcases length_placeMarker m rows with same | ⟨full, added⟩
    · obtain ⟨column, many⟩ := packed.full
      exact ⟨column, same ▸ Nat.le_trans many (more column)⟩
    · -- Every row has a marker on the first column of the new one.
      refine ⟨m.start, ?_⟩
      have each : ∀ count ∈ rows.map (sharing · m.start), 1 ≤ count := by
        intro count hc
        obtain ⟨row, hrow, rfl⟩ := List.mem_map.mp hc
        exact one_le_sharing (packed.filled row hrow) (fun a ha => wide a (own hrow ha)) wide_m
          (fun a ha => behind a (own hrow ha)) (full row hrow)
      have many := List.length_le_sum_of_one_le _ each
      rw [List.length_map, ← sharing_flatten, sharing_perm packed.held] at many
      have next : sharing (m :: placed) m.start = sharing placed m.start + 1 :=
        List.countP_cons_of_pos (covers_start wide_m)
      rw [added, next]
      exact Nat.succ_le_succ many

/-- Markers that come with their starts in order stay packed while they are placed. -/
theorem Packed.foldl (packed : Packed placed rows) (rest : List (Marker α))
    (wide : ∀ a ∈ placed ++ rest, a.start < a.stop)
    (sorted : rest.Pairwise fun a b => a.start ≤ b.start)
    (behind : ∀ a ∈ placed, ∀ b ∈ rest, a.start ≤ b.start) :
    ∃ all, all.Perm (placed ++ rest) ∧
      Packed all (rest.foldl (fun rows m => placeMarker m rows) rows) := by
  induction rest generalizing placed rows with
  | nil => exact ⟨placed, by simp, packed⟩
  | cons m rest ih =>
    obtain ⟨first, sorted⟩ := List.pairwise_cons.mp sorted
    have next := packed.place (fun a ha => wide a (by simp [ha])) (wide m (by simp))
      fun a ha => behind a ha m List.mem_cons_self
    have perm : (m :: placed ++ rest).Perm (placed ++ m :: rest) := List.perm_middle.symm
    have behind_next : ∀ a ∈ m :: placed, ∀ b ∈ rest, a.start ≤ b.start := by
      intro a ha b hb
      rcases List.mem_cons.mp ha with rfl | old
      · exact first b hb
      · exact behind a old b (List.mem_cons_of_mem m hb)
    obtain ⟨all, same, last⟩ :=
      ih next (fun a ha => wide a (perm.mem_iff.mp ha)) sorted behind_next
    exact ⟨all, same.trans perm, last⟩

theorem packed_markerRows (wide : ∀ m ∈ markers, m.start < m.stop) :
    Packed markers (markerRows markers) := by
  have none_placed : Packed ([] : List (Marker α)) [] :=
    ⟨.refl _, by simp, by simp, ((0 : Nat) : α), Nat.zero_le _⟩
  have sorted := Marker.sort_perm markers
  obtain ⟨all, same, packed⟩ := none_placed.foldl (Marker.sort markers)
    (fun m hm => wide m (sorted.mem_iff.mp hm)) (Marker.sort_starts wide) (by simp)
  obtain ⟨column, many⟩ := packed.full
  have perm := same.trans sorted
  exact ⟨packed.held.trans perm, packed.filled, packed.apart, column,
    sharing_perm perm column ▸ many⟩

/-- No column is shared by more markers than there are rows. -/
theorem Packed.sharing_le (packed : Packed markers rows) (column : α) :
    sharing markers column ≤ rows.length := by
  have each : ∀ count ∈ rows.map (sharing · column), count ≤ 1 := by
    intro count hc
    obtain ⟨row, hrow, rfl⟩ := List.mem_map.mp hc
    exact sharing_le_one (packed.apart row hrow) column
  have few := List.sum_le_card_nsmul _ 1 each
  rwa [List.length_map, ← sharing_flatten, sharing_perm packed.held, nsmul_one, Nat.cast_id] at few

/-- Markers are put on rows, each once and none on a column that is taken. There are as many rows
as markers share some column, and no order the markers come in changes the rows unless two of
them are tied. -/
theorem rows_pack_markers (markers : List (Marker α)) (wide : ∀ m ∈ markers, m.start < m.stop) :
    (markerRows markers).flatten.Perm markers ∧
      (∀ row ∈ markerRows markers, row ≠ [] ∧ row.Pairwise fun a b => a.stop ≤ b.start) ∧
      IsGreatest (Set.range (sharing markers)) (markerRows markers).length ∧
      ((∀ a ∈ markers, ∀ b ∈ markers, a.Tied b → a = b) →
        ∀ others : List (Marker α), others.Perm markers →
          markerRows others = markerRows markers) := by
  have packed := packed_markerRows wide
  refine ⟨packed.held, ?_, ⟨?_, ?_⟩, ?_⟩
  · intro row hrow
    exact ⟨packed.filled row hrow, packed.apart row hrow⟩
  · obtain ⟨column, many⟩ := packed.full
    exact ⟨column, Nat.le_antisymm (packed.sharing_le column) many⟩
  · rintro _ ⟨column, rfl⟩
    exact packed.sharing_le column
  · intro untied others perm
    rw [markerRows, Marker.sort_eq_of_perm wide untied perm, markerRows]

end

namespace Sample

/-- A marker with a shorter one inside it, and one behind both. -/
def stacked : List (Marker Nat) :=
  [⟨3, 4, .secondary, 1, none⟩, ⟨6, 7, .secondary, 2, none⟩, ⟨1, 5, .primary, 0, none⟩]

theorem stacked_untied : ∀ a ∈ stacked, ∀ b ∈ stacked, a.Tied b → a = b := by
  simp [stacked, Marker.Tied]

end Sample

theorem rows_pack_markers_sample :
    (∀ m ∈ Sample.stacked, m.start < m.stop) ∧
      (∀ a ∈ Sample.stacked, ∀ b ∈ Sample.stacked, a.Tied b → a = b) ∧
      IsGreatest (Set.range (sharing Sample.stacked)) 2 ∧
      ∀ others : List (Marker Nat), others.Perm Sample.stacked → markerRows others =
        [[⟨1, 5, .primary, 0, none⟩, ⟨6, 7, .secondary, 2, none⟩],
          [⟨3, 4, .secondary, 1, none⟩]] := by
  have wide : ∀ m ∈ Sample.stacked, m.start < m.stop := by decide
  have rows : markerRows Sample.stacked =
      [[⟨1, 5, .primary, 0, none⟩, ⟨6, 7, .secondary, 2, none⟩],
        [⟨3, 4, .secondary, 1, none⟩]] := by
    simp [Sample.stacked, markerRows, Marker.sort, List.mergeSort,
      List.MergeSort.Internal.splitInTwo, Marker.inOrder, inOrder, placeMarker, Marker.fitsBehind]
  obtain ⟨_, _, greatest, alike⟩ := rows_pack_markers Sample.stacked wide
  rw [rows] at greatest alike
  exact ⟨wide, Sample.stacked_untied, greatest, alike Sample.stacked_untied⟩

end Excerpt
