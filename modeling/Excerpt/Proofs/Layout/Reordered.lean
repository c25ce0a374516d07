import Excerpt.Proofs.Layout.Bare

/-! Labels in another order. Where no two labels mark a line from the same column on in the same
style, every order is decided before the places of labels in their diagnostic are looked at; so
rows, connector columns and slots are the same for labels that come in another order. -/
namespace Excerpt

namespace ResolvedLabel

/-- A label without its order. -/
def bare (l : ResolvedLabel Nat) : ResolvedLabel Nat := { l with order := 0 }

theorem markers_bare (l : ResolvedLabel Nat) (line lineEnd : Nat) :
    l.bare.markers line lineEnd = (l.markers line lineEnd).map Marker.bare := by
  simp only [markers, apply_ite (List.map Marker.bare), List.map_append]
  rfl

/-- Two labels mark the same line from the same column on in the same style. -/
def Clashes (a b : ResolvedLabel Nat) : Prop :=
  ∃ line lineEnd, ∃ m ∈ a.markers line lineEnd, ∃ n ∈ b.markers line lineEnd,
    m.start = n.start ∧ m.style = n.style

variable {a b l : ResolvedLabel Nat} {line lineEnd : Nat}

theorem Clashes.symm (h : a.Clashes b) : b.Clashes a := by
  obtain ⟨line, lineEnd, m, hm, n, hn, start, style⟩ := h
  exact ⟨line, lineEnd, n, hn, m, hm, start.symm, style.symm⟩

theorem clashes_bare_iff : a.bare.Clashes b.bare ↔ a.Clashes b := by
  simp only [Clashes, markers_bare, List.mem_map, exists_exists_and_eq_and]
  rfl

/-- A label marks a line once at most. -/
theorem eq_of_mem_markers {m n : Marker Nat} (hm : m ∈ l.markers line lineEnd)
    (hn : n ∈ l.markers line lineEnd) : m = n := by
  cases kind : l.isMultiline with
  | false =>
    rw [markers_of_single kind, List.mem_ite_nil_right, List.mem_singleton] at hm hn
    exact hm.2.trans hn.2.symm
  | true =>
    have apart := isMultiline_iff.mp kind
    rw [markers_of_multi kind, List.mem_append, List.mem_ite_nil_right, List.mem_ite_nil_right,
      List.mem_singleton, List.mem_singleton] at hm hn
    rcases hm with ⟨start, rfl⟩ | ⟨stop, rfl⟩
    · rcases hn with ⟨_, rfl⟩ | ⟨stop, _⟩
      · rfl
      · exact absurd (start.trans stop.symm) apart
    · rcases hn with ⟨start, _⟩ | ⟨_, rfl⟩
      · exact absurd (start.trans stop.symm) apart
      · rfl

theorem wide_of_mem_markers {m : Marker Nat} (hm : m ∈ l.markers line lineEnd) :
    m.start < m.stop := by
  obtain ⟨start, stop, message, _, _, rfl⟩ := marker_of_mem_markers hm
  show start < max stop (start + 1)
  omega

/-- The first line of a label is marked from its first column on. -/
theorem exists_marker_at_start (l : ResolvedLabel Nat) (lineEnd : Nat) :
    ∃ m ∈ l.markers l.start.line lineEnd, m.start = l.start.column ∧ m.style = l.style := by
  cases kind : l.isMultiline with
  | false =>
    rw [markers_of_single kind, if_pos rfl]
    exact ⟨_, List.mem_singleton_self _, rfl, rfl⟩
  | true =>
    rw [markers_of_multi kind, if_pos rfl]
    exact ⟨_, List.mem_cons_self, rfl, rfl⟩

theorem clashes_of_start (line : a.start.line = b.start.line)
    (column : a.start.column = b.start.column) (style : a.style = b.style) : a.Clashes b := by
  obtain ⟨m, hm, startA, styleA⟩ := a.exists_marker_at_start 0
  obtain ⟨n, hn, startB, styleB⟩ := b.exists_marker_at_start 0
  rw [← line] at hn
  exact ⟨_, 0, m, hm, n, hn, startA.trans (column.trans startB.symm),
    styleA.trans (style.trans styleB.symm)⟩

end ResolvedLabel

/-- No two labels clash. -/
def Untied (labels : List (ResolvedLabel Nat)) : Prop :=
  labels.Pairwise fun a b => ¬a.Clashes b

namespace Untied

variable {labels others : List (ResolvedLabel Nat)}

theorem eq_of_clashes (h : Untied labels) {a b : ResolvedLabel Nat} (ha : a ∈ labels)
    (hb : b ∈ labels) (clash : a.Clashes b) : a = b := by
  by_contra apart
  have symmetric : Std.Symm fun a b : ResolvedLabel Nat => ¬a.Clashes b :=
    ⟨fun _ _ free clash => free clash.symm⟩
  exact List.Pairwise.forall h ha hb apart clash

theorem of_perm (h : Untied labels)
    (perm : (others.map ResolvedLabel.bare).Perm (labels.map ResolvedLabel.bare)) :
    Untied others := by
  have bare (ls : List (ResolvedLabel Nat)) : Untied ls ↔ Untied (ls.map ResolvedLabel.bare) := by
    rw [Untied, Untied, List.pairwise_map]
    simp only [ResolvedLabel.clashes_bare_iff]
  rw [bare] at h ⊢
  exact (perm.pairwise_iff fun free clash => free clash.symm).mpr h

theorem distinct (h : Untied labels) (line lineEnd : Nat) :
    Marker.Distinct (labels.flatMap (ResolvedLabel.markers line lineEnd)) := by
  intro m hm n hn start style
  obtain ⟨a, ha, inA⟩ := List.mem_flatMap.mp hm
  obtain ⟨b, hb, inB⟩ := List.mem_flatMap.mp hn
  cases h.eq_of_clashes ha hb ⟨line, lineEnd, m, inA, n, inB, start, style⟩
  exact ResolvedLabel.eq_of_mem_markers inA inB

/-- Labels that do not clash are sorted without their orders. -/
theorem sort_map_bare (h : Untied labels) :
    (ResolvedLabel.sort labels).map ResolvedLabel.bare =
      ResolvedLabel.sort (labels.map ResolvedLabel.bare) := by
  apply List.map_mergeSort
  intro a ha b hb
  rw [Bool.eq_iff_iff, ResolvedLabel.inOrder_iff, ResolvedLabel.inOrder_iff]
  by_cases same : a.start.line = b.start.line ∧ a.start.column = b.start.column ∧
    a.style.rank = b.style.rank
  · cases h.eq_of_clashes ha hb
      (ResolvedLabel.clashes_of_start same.1 same.2.1 (LabelStyle.eq_of_rank same.2.2))
    simp [ResolvedLabel.bare]
  · simp only [ResolvedLabel.bare]
    omega

theorem sort_eq_of_perm (h : Untied labels)
    (perm : (others.map ResolvedLabel.bare).Perm (labels.map ResolvedLabel.bare)) :
    (ResolvedLabel.sort others).map ResolvedLabel.bare =
      (ResolvedLabel.sort labels).map ResolvedLabel.bare := by
  rw [h.sort_map_bare, (h.of_perm perm).sort_map_bare]
  symm
  apply mergeSort_eq_of_perm perm.symm
  · intro a _ b _ c _
    rw [ResolvedLabel.inOrder_iff, ResolvedLabel.inOrder_iff, ResolvedLabel.inOrder_iff]
    omega
  · intro a _ b _
    rw [← Bool.not_eq_true, ResolvedLabel.inOrder_iff, ResolvedLabel.inOrder_iff]
    omega
  · intro x hx y hy xy yx
    obtain ⟨a, ha, rfl⟩ := List.mem_map.mp hx
    obtain ⟨b, hb, rfl⟩ := List.mem_map.mp hy
    rw [ResolvedLabel.inOrder_iff] at xy yx
    simp only [ResolvedLabel.bare] at xy yx
    have style := LabelStyle.eq_of_rank (a := a.style) (b := b.style) (by omega)
    rw [h.eq_of_clashes ha hb (ResolvedLabel.clashes_of_start (by omega) (by omega) style)]

end Untied

/-! ## Rows -/

section

variable {labels others : List (ResolvedLabel Nat)}

theorem markersOn_perm (perm : (others.map ResolvedLabel.bare).Perm (labels.map ResolvedLabel.bare))
    (line lineEnd : Nat) : ((markersOn others line lineEnd).map Marker.bare).Perm
      ((markersOn labels line lineEnd).map Marker.bare) := by
  have bare (ls : List (ResolvedLabel Nat)) : ((markersOn ls line lineEnd).map Marker.bare).Perm
      ((ls.map ResolvedLabel.bare).flatMap (ResolvedLabel.markers line lineEnd)) := by
    rw [List.flatMap_map]
    simp only [ResolvedLabel.markers_bare, ← List.map_flatMap]
    exact (Marker.sort_perm _).map _
  exact (bare others).trans ((perm.flatMap_right _).trans (bare labels).symm)

theorem Untied.markersOn (h : Untied labels) (line lineEnd : Nat) :
    Marker.Distinct (markersOn labels line lineEnd) := by
  have sorted := Marker.sort_perm (labels.flatMap (ResolvedLabel.markers line lineEnd))
  intro m hm n hn
  exact h.distinct line lineEnd m (sorted.mem_iff.mp hm) n (sorted.mem_iff.mp hn)

theorem wide_of_mem_markersOn {line lineEnd : Nat} {m : Marker Nat}
    (hm : m ∈ markersOn labels line lineEnd) : m.start < m.stop := by
  obtain ⟨l, _, own⟩ := List.mem_flatMap.mp ((Marker.sort_perm _).mem_iff.mp hm)
  exact ResolvedLabel.wide_of_mem_markers own

theorem Untied.rows_eq_of_perm (h : Untied labels)
    (perm : (others.map ResolvedLabel.bare).Perm (labels.map ResolvedLabel.bare))
    (line lineEnd : Nat) :
    (markerRows (Excerpt.markersOn others line lineEnd)).flatMap annotate =
      (markerRows (Excerpt.markersOn labels line lineEnd)).flatMap annotate := by
  have rows := Marker.markerRows_eq_of_perm (fun _ => wide_of_mem_markersOn)
    (h.markersOn line lineEnd) ((h.of_perm perm).markersOn line lineEnd)
    (markersOn_perm perm line lineEnd)
  have annotated (rows : List (List (Marker Nat))) :
      (rows.map (List.map Marker.bare)).flatMap annotate = rows.flatMap annotate := by
    rw [List.flatMap_map]
    simp only [Marker.annotate_map_bare]
  rw [← annotated, rows, annotated]

end

/-! ## Connectors -/

theorem Entries.set_of_not_mem {κ β : Type} [DecidableEq κ] {entries : Entries κ β} {key : κ}
    (fresh : key ∉ entries.map (·.1)) (value : β) :
    Entries.set entries key value = entries ++ [(key, value)] := by
  induction entries with
  | nil => rfl
  | cons entry entries ih =>
    rw [List.map_cons, List.mem_cons, not_or] at fresh
    rw [set, if_neg (Ne.symm fresh.1), ih fresh.2, List.cons_append]

theorem Entries.lookup_eq_some_iff {κ β : Type} [DecidableEq κ] {entries : Entries κ β}
    (nodup : (entries.map (·.1)).Nodup) {key : κ} {value : β} :
    entries.lookup key = some value ↔ (key, value) ∈ entries := by
  rw [List.lookup_eq_some_iff]
  constructor
  · rintro ⟨front, back, rfl, _⟩
    simp
  · intro member
    obtain ⟨front, back, rfl⟩ := List.append_of_mem member
    refine ⟨front, back, rfl, ?_⟩
    intro entry inside
    rw [List.map_append, List.map_cons] at nodup
    have apart := (List.nodup_append.mp nodup).2.2 entry.1 (List.mem_map_of_mem inside) key
      List.mem_cons_self
    exact bne_iff_ne.mpr (Ne.symm apart)

namespace Connectors

/-- The columns that some labels are given one after another. -/
def columnsFrom (occupied : List (Occupied Nat)) : List (ResolvedLabel Nat) → List Nat
  | [] => []
  | l :: labels =>
    let held := occupied.filter fun entry => l.start.line ≤ entry.lastLine
    let column := freeColumn held
    column :: columnsFrom (held ++ [⟨column, l.stop.line⟩]) labels

theorem columnsFrom_map_bare (occupied : List (Occupied Nat)) (labels : List (ResolvedLabel Nat)) :
    columnsFrom occupied (labels.map ResolvedLabel.bare) = columnsFrom occupied labels := by
  induction labels generalizing occupied with
  | nil => rfl
  | cons l labels ih =>
    rw [List.map_cons, columnsFrom, columnsFrom, ih]
    rfl

theorem connectFrom_eq {labels : List (ResolvedLabel Nat)} {columns : Connectors Nat}
    (distinct : (columns.map (·.1) ++ labels.map (·.order)).Nodup)
    (occupied : List (Occupied Nat)) :
    connectFrom occupied columns labels =
      columns ++ (labels.map (·.order)).zip (columnsFrom occupied labels) := by
  induction labels generalizing occupied columns with
  | nil => simp [connectFrom, columnsFrom]
  | cons l labels ih =>
    rw [List.map_cons] at distinct
    have fresh : l.order ∉ columns.map (·.1) := by
      intro used
      exact (List.nodup_append.mp distinct).2.2 _ used _ List.mem_cons_self rfl
    have next (column : Nat) :
        ((columns ++ [(l.order, column)]).map (·.1) ++ labels.map (·.order)).Nodup := by
      rw [List.map_append, List.append_assoc]
      exact distinct
    rw [connectFrom, Entries.set_of_not_mem fresh, ih (next _), List.append_assoc]
    rfl

section

variable {labels others : List (ResolvedLabel Nat)}

/-- The labels over several lines in the order in which they are given columns. -/
def queue (labels : List (ResolvedLabel Nat)) : List (ResolvedLabel Nat) :=
  ResolvedLabel.sort (labels.filter ResolvedLabel.isMultiline)

theorem mem_queue {l : ResolvedLabel Nat} :
    l ∈ queue labels ↔ l ∈ labels ∧ l.isMultiline = true := by
  rw [queue, (ResolvedLabel.sort_perm _).mem_iff, List.mem_filter]

theorem nodup_queue (distinct : (labels.map (·.order)).Nodup) :
    ((queue labels).map (·.order)).Nodup :=
  ((ResolvedLabel.sort_perm _).map _).nodup_iff.mpr (distinct.sublist (List.filter_sublist.map _))

theorem connectors_eq (distinct : (labels.map (·.order)).Nodup) : connectors labels =
    ((queue labels).map (·.order)).zip (columnsFrom [] (queue labels)) := by
  have none_given : (([] : Connectors Nat).map (·.1) ++ (queue labels).map (·.order)).Nodup :=
    nodup_queue distinct
  exact connectFrom_eq none_given []

theorem length_columnsFrom (occupied : List (Occupied Nat)) (labels : List (ResolvedLabel Nat)) :
    (columnsFrom occupied labels).length = labels.length := by
  induction labels generalizing occupied with
  | nil => rfl
  | cons l labels ih => rw [columnsFrom, List.length_cons, ih, List.length_cons]

theorem length_connectors (distinct : (labels.map (·.order)).Nodup) :
    (connectors labels).length = (queue labels).length := by
  rw [connectors_eq distinct, List.length_zip, length_columnsFrom, List.length_map, Nat.min_self]

/-- The width follows from the columns alone. -/
theorem width_connectors (distinct : (labels.map (·.order)).Nodup) :
    (connectors labels).width =
      (columnsFrom [] ((queue labels).map ResolvedLabel.bare)).foldl
        (fun width column => max width (column + 1)) 0 := by
  have columns : (connectors labels).map (·.2) = columnsFrom [] (queue labels) := by
    rw [connectors_eq distinct]
    apply List.map_snd_zip
    rw [length_columnsFrom, List.length_map]
  rw [width, columnsFrom_map_bare, ← columns, List.foldl_map]

theorem lookup_connectors (distinct : (labels.map (·.order)).Nodup) {l : ResolvedLabel Nat}
    (hl : l ∈ labels) {column : Nat} : (connectors labels).lookup l.order = some column ↔
      (l, column) ∈ (queue labels).zip (columnsFrom [] (queue labels)) := by
  have keys : ((connectors labels).map (·.1)).Nodup := by
    rw [connectors_eq distinct, List.map_fst_zip]
    · exact nodup_queue distinct
    · rw [length_columnsFrom, List.length_map]
  rw [Entries.lookup_eq_some_iff keys, connectors_eq distinct, List.zip_map_left, List.mem_map]
  constructor
  · rintro ⟨⟨other, used⟩, member, same⟩
    obtain ⟨order, rfl⟩ := Prod.mk.inj same
    have own := (mem_queue.mp (List.of_mem_zip member).1).1
    exact List.inj_on_of_nodup_map distinct own hl order ▸ member
  · intro member
    exact ⟨_, member, rfl⟩

/-- Labels that pass a place pass it between their lines, where they meet. -/
structure Passing (passes : ResolvedLabel Nat → Bool) : Prop where
  bare : ∀ l : ResolvedLabel Nat, passes l.bare = passes l
  multi : ∀ l, passes l = true → l.isMultiline = true
  meets : ∀ a b, passes a = true → passes b = true → a.Meets b

variable {passes : ResolvedLabel Nat → Bool}

/-- A slot follows from the queue without its orders. -/
theorem slots_connectors (distinct : (labels.map (·.order)).Nodup) (passing : Passing passes)
    (column : Nat) (style : LabelStyle) :
    ((connectors labels).slots labels passes)[column]? = some (some style) ↔
      ∃ l, (l, column) ∈ ((queue labels).map ResolvedLabel.bare).zip
        (columnsFrom [] ((queue labels).map ResolvedLabel.bare)) ∧
        passes l = true ∧ l.style = style := by
  have assigns := assigns_connectors distinct
  rw [slots_getElem?]
  · rw [columnsFrom_map_bare, List.zip_map_left]
    constructor
    · rintro ⟨l, hl, passed, own, rfl⟩
      have member := (lookup_connectors distinct hl).mp own
      exact ⟨l.bare, List.mem_map.mpr ⟨_, member, rfl⟩, (passing.bare l).trans passed, rfl⟩
    · rintro ⟨_, member, passed, rfl⟩
      obtain ⟨⟨l, used⟩, own, same⟩ := List.mem_map.mp member
      obtain ⟨rfl, rfl⟩ := Prod.mk.inj same
      have hl := (mem_queue.mp (List.of_mem_zip own).1).1
      exact ⟨l, hl, (passing.bare l).symm.trans passed,
        (lookup_connectors distinct hl).mpr own, rfl⟩
  · -- Two labels that pass one place meet there, so they were given different columns.
    intro a ha b hb passA passB used ownA ownB
    by_cases same : a.order = b.order
    · exact List.inj_on_of_nodup_map distinct ha hb same
    · have differ := assigns.apart a (List.mem_filter.mpr ⟨ha, passing.multi a passA⟩) b
        (List.mem_filter.mpr ⟨hb, passing.multi b passB⟩) same (passing.meets a b passA passB)
      exact absurd (ownA.trans ownB.symm) differ

end

section

variable {labels others : List (ResolvedLabel Nat)}

theorem queue_eq_of_perm (h : Untied labels)
    (perm : (others.map ResolvedLabel.bare).Perm (labels.map ResolvedLabel.bare)) :
    (queue others).map ResolvedLabel.bare = (queue labels).map ResolvedLabel.bare := by
  have multi (ls : List (ResolvedLabel Nat)) :
      (ls.filter ResolvedLabel.isMultiline).map ResolvedLabel.bare =
        (ls.map ResolvedLabel.bare).filter ResolvedLabel.isMultiline := by
    rw [List.filter_map]
    rfl
  have untied : Untied (labels.filter ResolvedLabel.isMultiline) := h.sublist List.filter_sublist
  apply untied.sort_eq_of_perm
  rw [multi, multi]
  exact perm.filter _

theorem length_eq_of_perm (distinct : (labels.map (·.order)).Nodup)
    (distinct' : (others.map (·.order)).Nodup)
    (perm : (others.map ResolvedLabel.bare).Perm (labels.map ResolvedLabel.bare)) :
    (connectors others).length = (connectors labels).length := by
  have multi (ls : List (ResolvedLabel Nat)) :
      (queue ls).length = (ls.map ResolvedLabel.bare).countP ResolvedLabel.isMultiline := by
    rw [queue, (ResolvedLabel.sort_perm _).length_eq, ← List.countP_eq_length_filter,
      List.countP_map]
    rfl
  rw [length_connectors distinct, length_connectors distinct', multi, multi, perm.countP_eq]

theorem width_eq_of_perm (h : Untied labels) (distinct : (labels.map (·.order)).Nodup)
    (distinct' : (others.map (·.order)).Nodup)
    (perm : (others.map ResolvedLabel.bare).Perm (labels.map ResolvedLabel.bare)) :
    (connectors others).width = (connectors labels).width := by
  rw [width_connectors distinct, width_connectors distinct', queue_eq_of_perm h perm]

theorem slots_eq_of_perm (h : Untied labels) (distinct : (labels.map (·.order)).Nodup)
    (distinct' : (others.map (·.order)).Nodup)
    (perm : (others.map ResolvedLabel.bare).Perm (labels.map ResolvedLabel.bare))
    {passes : ResolvedLabel Nat → Bool} (passing : Passing passes) :
    (connectors others).slots others passes = (connectors labels).slots labels passes := by
  have width := width_eq_of_perm h distinct distinct' perm
  apply List.ext_getElem
  · rw [length_slots, length_slots, width]
  · intro column inside inside'
    apply Option.ext
    intro style
    have slot := slots_connectors distinct passing column style
    have slot' := slots_connectors distinct' passing column style
    rw [queue_eq_of_perm h perm, ← slot] at slot'
    rwa [List.getElem?_eq_getElem inside, List.getElem?_eq_getElem inside', Option.some.injEq,
      Option.some.injEq] at slot'

end
end Connectors
end Excerpt
