import Mathlib.Data.List.Basic

/-! The order of lists. Sorting leaves elements in every order that the comparison respects, also
where the comparison itself is not transitive; and elements that no comparison leaves
undecided are sorted in one way only. Dropping repetitions keeps the order of first uses. -/
namespace Excerpt

section

variable {α : Type} {le : α → α → Bool} {r : α → α → Prop}

theorem pairwise_merge_of_respects (trans : ∀ a b c, r a b → r b c → r a c)
    (before : ∀ a b, le a b = true → r a b) (behind : ∀ a b, le a b = false → r b a)
    {xs ys : List α} (hx : xs.Pairwise r) (hy : ys.Pairwise r) : (xs.merge ys le).Pairwise r := by
  fun_induction List.merge xs ys le with
  | case1 ys => exact hy
  | case2 xs => exact hx
  | case3 x xs y ys first ih =>
    obtain ⟨hxs, rest⟩ := List.pairwise_cons.mp hx
    obtain ⟨hys, _⟩ := List.pairwise_cons.mp hy
    apply List.pairwise_cons.mpr ⟨_, ih rest hy⟩
    intro z hz
    have next := before x y first
    rcases List.mem_merge.mp hz with own | other
    · exact hxs z own
    · rcases List.mem_cons.mp other with rfl | later
      · exact next
      · exact trans x y z next (hys z later)
  | case4 x xs y ys second ih =>
    obtain ⟨hxs, _⟩ := List.pairwise_cons.mp hx
    obtain ⟨hys, rest⟩ := List.pairwise_cons.mp hy
    apply List.pairwise_cons.mpr ⟨_, ih hx rest⟩
    intro z hz
    have next := behind x y (Bool.eq_false_iff.mpr second)
    rcases List.mem_merge.mp hz with own | other
    · rcases List.mem_cons.mp own with rfl | later
      · exact next
      · exact trans y x z next (hxs z later)
    · exact hys z other

theorem pairwise_mergeSort_of_respects (trans : ∀ a b c, r a b → r b c → r a c)
    (before : ∀ a b, le a b = true → r a b) (behind : ∀ a b, le a b = false → r b a)
    (xs : List α) : (xs.mergeSort le).Pairwise r := by
  fun_induction List.mergeSort xs le with
  | case1 => exact .nil
  | case2 le x => exact List.pairwise_singleton r x
  | case3 x y xs le halves _ _ left right =>
    exact pairwise_merge_of_respects trans before behind (left before behind) (right before behind)

/-- Only the elements that are sorted matter. -/
theorem pairwise_mergeSort_of_mem {xs : List α}
    (trans : ∀ a ∈ xs, ∀ b ∈ xs, ∀ c ∈ xs, r a b → r b c → r a c)
    (before : ∀ a ∈ xs, ∀ b ∈ xs, le a b = true → r a b)
    (behind : ∀ a ∈ xs, ∀ b ∈ xs, le a b = false → r b a) : (xs.mergeSort le).Pairwise r := by
  -- With its membership attached, every element that is compared is one of the list.
  have sorted : (xs.attach.mergeSort fun a b => le a b).Pairwise fun a b => r a.1 b.1 := by
    apply pairwise_mergeSort_of_respects
    · intro a b c
      exact trans a a.2 b b.2 c c.2
    · intro a b
      exact before a a.2 b b.2
    · intro a b
      exact behind a a.2 b b.2
  have same := List.map_mergeSort (r := fun a b : { x // x ∈ xs } => le a b) (s := le)
    (f := Subtype.val) (l := xs.attach) fun _ _ _ _ => rfl
  rw [List.attach_map_subtype_val] at same
  rw [← same]
  exact List.pairwise_map.mpr sorted

/-- Lists with the same elements are sorted alike if no comparison of different elements is
left undecided. -/
theorem mergeSort_eq_of_perm {xs ys : List α} (perm : xs.Perm ys)
    (trans : ∀ a ∈ xs, ∀ b ∈ xs, ∀ c ∈ xs, le a b = true → le b c = true → le a c = true)
    (total : ∀ a ∈ xs, ∀ b ∈ xs, le a b = false → le b a = true)
    (decided : ∀ a ∈ xs, ∀ b ∈ xs, le a b = true → le b a = true → a = b) :
    xs.mergeSort le = ys.mergeSort le := by
  have mem {a : α} (h : a ∈ ys) : a ∈ xs := perm.mem_iff.mpr h
  have left : (xs.mergeSort le).Pairwise fun a b => le a b = true :=
    pairwise_mergeSort_of_mem trans (fun _ _ _ _ h => h) total
  have right : (ys.mergeSort le).Pairwise fun a b => le a b = true :=
    pairwise_mergeSort_of_mem (fun a ha b hb c hc => trans a (mem ha) b (mem hb) c (mem hc))
      (fun _ _ _ _ h => h) fun a ha b hb => total a (mem ha) b (mem hb)
  have same : (xs.mergeSort le).Perm (ys.mergeSort le) :=
    (List.mergeSort_perm xs le).trans (perm.trans (List.mergeSort_perm ys le).symm)
  apply List.Perm.eq_of_pairwise _ left right same
  intro a b ha hb
  exact decided a (List.mem_mergeSort.mp ha) b (mem (List.mem_mergeSort.mp hb))

end

/-- Filtering keeps the order of first uses. -/
theorem idxOf_lt_of_filter {α : Type} [DecidableEq α] {p : α → Bool} {xs : List α} {a b : α}
    (hb : p b = true) (h : (xs.filter p).idxOf a < (xs.filter p).idxOf b) :
    xs.idxOf a < xs.idxOf b := by
  induction xs with
  | nil => simp at h
  | cons x xs ih =>
    by_cases kept : p x = true
    · rw [List.filter_cons_of_pos kept] at h
      grind
    · rw [List.filter_cons_of_neg kept] at h
      grind

/-- Without repetitions a list keeps the order of first uses. -/
theorem eraseDups_ordered {α : Type} [DecidableEq α] (xs : List α) :
    xs.eraseDups.Pairwise fun a b => xs.idxOf a < xs.idxOf b := by
  match xs with
  | [] => exact .nil
  | x :: xs =>
    have shorter := List.length_filter_le (fun y => !y == x) xs
    have ih := eraseDups_ordered (xs.filter fun y => !y == x)
    rw [List.eraseDups_cons]
    have other {y : α} (member : y ∈ (xs.filter fun y => !y == x).eraseDups) : y ≠ x := by
      have kept := (List.mem_filter.mp (List.mem_eraseDups.mp member)).2
      simpa using kept
    refine List.pairwise_cons.mpr ⟨?_, ?_⟩
    · intro y member
      rw [List.idxOf_cons_self, List.idxOf_cons_ne xs (other member).symm]
      exact Nat.succ_pos _
    · refine ih.imp_of_mem fun {a b} ha hb first => ?_
      rw [List.idxOf_cons_ne xs (other ha).symm, List.idxOf_cons_ne xs (other hb).symm]
      exact Nat.succ_lt_succ (idxOf_lt_of_filter (by simpa using other hb) first)
termination_by xs.length

theorem nodup_eraseDups {α : Type} [DecidableEq α] (xs : List α) : xs.eraseDups.Nodup := by
  refine (eraseDups_ordered xs).imp fun {a b} first => ?_
  rintro rfl
  exact Nat.lt_irrefl _ first

end Excerpt
