import Excerpt.Resolution
import Mathlib.Data.List.Forall2
import Mathlib.Data.Nat.Cast.Basic

/-! Resolved labels: what a label is resolved to, and what all of them have in
common, however the sources answer. Columns count from 1, and the order of a
label is its place in the diagnostic. -/
namespace Excerpt

theorem bind_eq_ok_iff {ε α β : Type} {x : Except ε α} {f : α → Except ε β} {b : β} :
    (x >>= f) = .ok b ↔ ∃ a, x = .ok a ∧ f a = .ok b := by
  cases x <;> simp [bind, Except.bind]

theorem bind_eq_error_iff {ε α β : Type} {x : Except ε α} {f : α → Except ε β} {e : ε} :
    (x >>= f) = .error e ↔ x = .error e ∨ ∃ a, x = .ok a ∧ f a = .error e := by
  cases x <;> simp [bind, Except.bind]

section

variable {α : Type} [Add α] [Sub α] [Mod α] [OfNat α 0] [OfNat α 1] [NatCast α]

namespace Span

theorem position_eq_ok_iff {sources : Sources} {config : Config} {span : Span}
    {offset : Number} {p : Position α} :
    span.position sources config offset = .ok p ↔
      ∃ location range before, sources.location span.file offset = some location ∧
        sources.lineRange span.file location.line = some range ∧
        sources.slice span.file range.start
          ((range.start + location.byteColumn : Nat) : Number) = some before ∧
        p = ⟨location.line, 1 + Columns.width (config.tabWidth : α) before⟩ := by
  unfold position
  cases sources.location span.file offset with
  | none => simp
  | some location =>
    cases found : sources.lineRange span.file location.line with
    | none => simp [found]
    | some range =>
      cases text : sources.slice span.file range.start
        ((range.start + location.byteColumn : Nat) : Number) with
      | none => simp [found, text]
      | some before => simp [found, text, eq_comm]

theorem resolve_eq_ok_iff {sources : Sources} {config : Config} {span : Span}
    {start stop : Position α} :
    span.resolve sources config = .ok (start, stop) ↔
      sources.name span.file ≠ none ∧ span.stop.less span.start = false ∧
        span.position sources config span.start = .ok start ∧
        span.position sources config span.stop = .ok stop := by
  unfold resolve
  by_cases unknown : sources.name span.file = none
  · simp [unknown, bind, Except.bind, throw, throwThe, MonadExceptOf.throw]
  · cases reversed : span.stop.less span.start with
    | true => simp [unknown, bind, Except.bind, throw, throwThe, MonadExceptOf.throw]
    | false =>
      simp only [unknown, if_false, ne_eq, not_false_eq_true, true_and, Bool.false_eq_true]
      constructor
      · intro h
        obtain ⟨first, hfirst, h⟩ := bind_eq_ok_iff.mp h
        obtain ⟨second, hsecond, h⟩ := bind_eq_ok_iff.mp h
        cases h
        exact ⟨hfirst, hsecond⟩
      · rintro ⟨hfirst, hsecond⟩
        exact bind_eq_ok_iff.mpr ⟨start, hfirst, bind_eq_ok_iff.mpr ⟨stop, hsecond, rfl⟩⟩

end Span

theorem Label.resolve_eq_ok_iff {sources : Sources} {config : Config} {label : Label}
    {order : Nat} {l : ResolvedLabel α} :
    label.resolve sources config order = .ok l ↔
      ∃ start stop, label.span.resolve sources config = .ok (start, stop) ∧
        l = ⟨label.style, label.message.filter (· != ""), label.span.file, start, stop, order⟩ := by
  unfold resolve
  constructor
  · intro h
    obtain ⟨⟨start, stop⟩, ends, h⟩ := bind_eq_ok_iff.mp h
    exact ⟨start, stop, ends, (Except.ok.inj h).symm⟩
  · rintro ⟨start, stop, ends, rfl⟩
    exact bind_eq_ok_iff.mpr ⟨(start, stop), ends, rfl⟩

end

theorem forall₂_of_mapM_eq_ok {ε α β : Type} {f : α → Except ε β} {xs : List α} {ys : List β}
    (h : xs.mapM f = .ok ys) : List.Forall₂ (fun x y => f x = .ok y) xs ys := by
  induction xs generalizing ys with
  | nil => cases h; exact .nil
  | cons x xs ih =>
    rw [List.mapM_cons] at h
    obtain ⟨y, first, h⟩ := bind_eq_ok_iff.mp h
    obtain ⟨others, rest, h⟩ := bind_eq_ok_iff.mp h
    cases h
    exact .cons first (ih rest)

/-- Steps that all succeed are taken one by one. -/
theorem mapM_eq_ok_iff {ε α β : Type} {f : α → Except ε β} {xs : List α} {ys : List β} :
    xs.mapM f = .ok ys ↔ List.Forall₂ (fun x y => f x = .ok y) xs ys := by
  refine ⟨forall₂_of_mapM_eq_ok, fun each => ?_⟩
  induction each with
  | nil => rfl
  | cons own _ ih =>
    rw [List.mapM_cons]
    exact bind_eq_ok_iff.mpr ⟨_, own, bind_eq_ok_iff.mpr ⟨_, ih, rfl⟩⟩

theorem exists_of_forall₂ {α β : Type} {R : α → β → Prop} {xs : List α} {ys : List β}
    (h : List.Forall₂ R xs ys) {x : α} (member : x ∈ xs) : ∃ y ∈ ys, R x y := by
  induction h with
  | nil => cases member
  | cons own _ ih =>
    rcases List.mem_cons.mp member with rfl | later
    · exact ⟨_, List.mem_cons_self, own⟩
    · obtain ⟨y, inside, related⟩ := ih later
      exact ⟨y, List.mem_cons_of_mem _ inside, related⟩

theorem forall₂_zipIdx {α β : Type} {R : α → β → Prop} {xs : List α} {ys : List β} :
    List.Forall₂ (fun numbered y => R numbered.1 y) xs.zipIdx ys ↔ List.Forall₂ R xs ys := by
  have items : xs.zipIdx.map (·.1) = xs := List.zipIdx_map_fst 0 xs
  rw [← List.forall₂_map_left_iff, items]

/-- Where a list of steps stops. -/
theorem exists_first_of_mapM_eq_error {ε α β : Type} {f : α → Except ε β} {xs : List α} {e : ε}
    (h : xs.mapM f = .error e) :
    ∃ before x after, xs = before ++ x :: after ∧ (∀ y ∈ before, ∃ z, f y = .ok z) ∧
      f x = .error e := by
  induction xs with
  | nil => cases h
  | cons x xs ih =>
    rw [List.mapM_cons] at h
    cases own : f x with
    | error first =>
      rw [own] at h
      cases h
      exact ⟨[], x, xs, rfl, by simp, own⟩
    | ok y =>
      cases rest : xs.mapM f with
      | ok ys =>
        rw [own, rest] at h
        cases h
      | error later =>
        rw [own, rest] at h
        cases h
        obtain ⟨before, bad, after, rfl, good, stops⟩ := ih rest
        exact ⟨x :: before, bad, after, rfl, List.forall_mem_cons.mpr ⟨⟨y, own⟩, good⟩, stops⟩

theorem mapM_eq_error_iff {ε α β : Type} {f : α → Except ε β} {xs : List α} {e : ε} :
    xs.mapM f = .error e ↔ ∃ before x after, xs = before ++ x :: after ∧
      (∀ y ∈ before, ∃ z, f y = .ok z) ∧ f x = .error e := by
  refine ⟨exists_first_of_mapM_eq_error, ?_⟩
  rintro ⟨before, x, after, rfl, good, stops⟩
  induction before with
  | nil =>
    rw [List.nil_append, List.mapM_cons]
    exact bind_eq_error_iff.mpr (.inl stops)
  | cons y before ih =>
    obtain ⟨⟨z, own⟩, good⟩ := List.forall_mem_cons.mp good
    rw [List.cons_append, List.mapM_cons]
    exact bind_eq_error_iff.mpr (.inr ⟨z, own, bind_eq_error_iff.mpr (.inl (ih good))⟩)

/-- What any sources make of a label. -/
structure ResolvedLabel.Proper (l : ResolvedLabel Nat) : Prop where
  start_pos : 1 ≤ l.start.column
  stop_pos : 1 ≤ l.stop.column

namespace Diagnostic

theorem resolveLabels_getElem? {α : Type} [Add α] [Sub α] [Mod α] [OfNat α 0] [OfNat α 1]
    [NatCast α] {sources : Sources} {config : Config} {d : Diagnostic}
    {labels : List (ResolvedLabel α)} (h : d.resolveLabels sources config = .ok labels)
    (order : Nat) (l : ResolvedLabel α) :
    labels[order]? = some l ↔
      ∃ label, d.labels[order]? = some label ∧ label.resolve sources config order = .ok l := by
  have each := forall₂_of_mapM_eq_ok h
  have same := each.length_eq
  rw [List.length_zipIdx] at same
  constructor
  · intro found
    obtain ⟨inside, eq⟩ := List.getElem?_eq_some_iff.mp found
    have resolved := each.get (i := order) (by rw [List.length_zipIdx]; omega) inside
    simp only [List.get_eq_getElem, List.getElem_zipIdx, Nat.zero_add, eq] at resolved
    exact ⟨_, List.getElem?_eq_getElem _, resolved⟩
  · rintro ⟨label, found, resolved⟩
    obtain ⟨inside, eq⟩ := List.getElem?_eq_some_iff.mp found
    have known := each.get (i := order) (by rw [List.length_zipIdx]; omega) (by omega)
    simp only [List.get_eq_getElem, List.getElem_zipIdx, Nat.zero_add, eq] at known
    rw [List.getElem?_eq_getElem (by omega)]
    exact congrArg some (Except.ok.inj (known.symm.trans resolved))

variable {sources : Sources} {config : Config} {d : Diagnostic} {labels : List (ResolvedLabel Nat)}

theorem resolved_of_resolveLabels (h : d.resolveLabels sources config = .ok labels) {order : Nat}
    {label : Label} (own : d.labels[order]? = some label) :
    ∃ l ∈ labels, label.resolve sources config order = .ok l := by
  have same := (forall₂_of_mapM_eq_ok h).length_eq
  rw [List.length_zipIdx] at same
  obtain ⟨inside, _⟩ := List.getElem?_eq_some_iff.mp own
  obtain ⟨l, found⟩ : ∃ l, labels[order]? = some l :=
    ⟨labels.get ⟨order, same ▸ inside⟩, List.getElem?_eq_getElem _⟩
  obtain ⟨other, known, resolved⟩ := (resolveLabels_getElem? h order l).mp found
  rw [own, Option.some.injEq] at known
  exact ⟨l, List.mem_of_getElem? found, known ▸ resolved⟩

theorem order_of_resolveLabels (h : d.resolveLabels sources config = .ok labels) :
    labels.map (·.order) = List.range labels.length := by
  apply List.ext_getElem?
  intro order
  rw [List.getElem?_map]
  cases found : labels[order]? with
  | none =>
    have outside := List.getElem?_eq_none_iff.mp found
    rw [Option.map_none, eq_comm, List.getElem?_eq_none_iff, List.length_range]
    exact outside
  | some l =>
    obtain ⟨inside, _⟩ := List.getElem?_eq_some_iff.mp found
    obtain ⟨_, _, resolved⟩ := (resolveLabels_getElem? h order l).mp found
    obtain ⟨_, _, _, rfl⟩ := Label.resolve_eq_ok_iff.mp resolved
    rw [List.getElem?_range inside]
    rfl

theorem nodup_order_of_resolveLabels (h : d.resolveLabels sources config = .ok labels) :
    (labels.map (·.order)).Nodup :=
  order_of_resolveLabels h ▸ List.nodup_range

theorem proper_of_resolveLabels (h : d.resolveLabels sources config = .ok labels) :
    ∀ l ∈ labels, l.Proper := by
  intro l hl
  obtain ⟨order, found⟩ := List.mem_iff_getElem?.mp hl
  obtain ⟨_, _, resolved⟩ := (resolveLabels_getElem? h order l).mp found
  obtain ⟨start, stop, ends, rfl⟩ := Label.resolve_eq_ok_iff.mp resolved
  obtain ⟨_, _, first, last⟩ := Span.resolve_eq_ok_iff.mp ends
  obtain ⟨_, _, _, _, _, _, rfl⟩ := Span.position_eq_ok_iff.mp first
  obtain ⟨_, _, _, _, _, _, rfl⟩ := Span.position_eq_ok_iff.mp last
  exact ⟨Nat.le_add_right 1 _, Nat.le_add_right 1 _⟩

end Diagnostic
end Excerpt
