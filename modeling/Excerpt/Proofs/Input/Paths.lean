import Excerpt.Input

/-! Formatted paths. Each step of a path is written behind a mark that no step has inside, so a
formatted path can be cut back into its steps, and different paths are written differently. -/
namespace Excerpt

namespace Step

/-- The characters that a step starts with, and only it. -/
def IsMark (c : Char) : Prop := c = '.' ∨ c = '['

instance (c : Char) : Decidable (IsMark c) := inferInstanceAs (Decidable (_ ∨ _))

/-- A step into a list, or to a member whose name has no marks in it. -/
def Plain : Step → Prop
  | key name => ∀ c ∈ name.toList, ¬IsMark c
  | index _ => True
  | number _ => False

instance : DecidablePred Plain
  | key name => inferInstanceAs (Decidable (∀ c ∈ name.toList, ¬IsMark c))
  | index _ => .isTrue trivial
  | number _ => .isFalse id

theorem toList_toText_key (name : String) : (key name).toText.toList = '.' :: name.toList := by
  rw [toText, String.toList_append]
  rfl

theorem toList_toText_index (i : Nat) :
    (index i).toText.toList = '[' :: (Nat.toDigits 10 i ++ [']']) := by
  simp [toText, Decimal.digits]

/-- A plain step is a mark and then other characters. -/
theorem Plain.spelled {s : Step} (h : s.Plain) :
    ∃ mark body, s.toText.toList = mark :: body ∧ IsMark mark ∧ ∀ c ∈ body, ¬IsMark c := by
  cases s with
  | key name => exact ⟨'.', _, toList_toText_key name, .inl rfl, h⟩
  | index i =>
    refine ⟨'[', _, toList_toText_index i, .inr rfl, ?_⟩
    intro c hc
    rcases List.mem_append.mp hc with digit | stop
    · have digit := Nat.isDigit_of_mem_toDigits (by decide) (by decide) digit
      rintro (rfl | rfl) <;> exact absurd digit (by decide)
    · rw [List.mem_singleton.mp stop]
      decide
  | number value => cases h

theorem toText_inj {s t : Step} (hs : s.Plain) (ht : t.Plain)
    (h : s.toText.toList = t.toText.toList) : s = t := by
  cases s with
  | number value => cases hs
  | key name =>
    cases t with
    | number value => cases ht
    | key other =>
      rw [toList_toText_key, toList_toText_key, List.cons.injEq] at h
      rw [String.toList_injective h.2]
    | index i =>
      rw [toList_toText_key, toList_toText_index, List.cons.injEq] at h
      exact absurd h.1 (by decide)
  | index i =>
    cases t with
    | number value => cases ht
    | key name =>
      rw [toList_toText_key, toList_toText_index, List.cons.injEq] at h
      exact absurd h.1 (by decide)
    | index j =>
      rw [toList_toText_index, toList_toText_index, List.cons.injEq, List.append_left_inj] at h
      have same : i = j := calc
        i = Nat.ofDigitChars 10 (Nat.toDigits 10 i) 0 := Nat.ofDigitChars_ten_toDigits.symm
        _ = Nat.ofDigitChars 10 (Nat.toDigits 10 j) 0 := by rw [h.2]
        _ = j := Nat.ofDigitChars_ten_toDigits
      rw [same]

end Step

theorem toList_issuePath (steps : List Step) :
    (issuePath steps).toList = '$' :: steps.flatMap fun s => s.toText.toList := by
  simp [issuePath, List.flatMap_map]

/-- What follows a step is empty or starts with a mark. -/
theorem takeWhile_steps {steps : List Step} (h : ∀ s ∈ steps, s.Plain) :
    (steps.flatMap fun s => s.toText.toList).takeWhile (fun c => !decide (Step.IsMark c)) = [] := by
  cases steps with
  | nil => rfl
  | cons s rest =>
    obtain ⟨mark, body, spelled, marked, _⟩ := (h s List.mem_cons_self).spelled
    rw [List.flatMap_cons, spelled, List.cons_append, List.takeWhile_cons_of_neg (by simp [marked])]

/-- The first step of a path is what is written up to the next mark. -/
theorem takeWhile_body {body : List Char} (plain : ∀ c ∈ body, ¬Step.IsMark c)
    {rest : List Step} (h : ∀ s ∈ rest, s.Plain) :
    (body ++ rest.flatMap fun s => s.toText.toList).takeWhile
      (fun c => !decide (Step.IsMark c)) = body := by
  rw [List.takeWhile_append_of_pos (by simpa using plain), takeWhile_steps h, List.append_nil]

theorem flatMap_toText_inj {p q : List Step} (hp : ∀ s ∈ p, s.Plain) (hq : ∀ s ∈ q, s.Plain)
    (h : (p.flatMap fun s => s.toText.toList) = q.flatMap fun s => s.toText.toList) : p = q := by
  induction p generalizing q with
  | nil =>
    cases q with
    | nil => rfl
    | cons t q =>
      obtain ⟨mark, body, spelled, _⟩ := (hq t List.mem_cons_self).spelled
      rw [List.flatMap_cons, spelled] at h
      cases h
  | cons s p ih =>
    obtain ⟨mark, body, spelled, _, plain⟩ := (hp s List.mem_cons_self).spelled
    cases q with
    | nil =>
      rw [List.flatMap_cons, spelled] at h
      cases h
    | cons t q =>
      obtain ⟨mark', body', spelled', _, plain'⟩ := (hq t List.mem_cons_self).spelled
      obtain ⟨own, restp⟩ := List.forall_mem_cons.mp hp
      obtain ⟨own', restq⟩ := List.forall_mem_cons.mp hq
      rw [List.flatMap_cons, List.flatMap_cons, spelled, spelled', List.cons_append,
        List.cons_append, List.cons.injEq] at h
      obtain ⟨same_mark, later⟩ := h
      have same_body : body = body' := by
        rw [← takeWhile_body plain restp, later, takeWhile_body plain' restq]
      rw [same_body, List.append_cancel_left_eq] at later
      have same_text : s.toText.toList = t.toText.toList := by
        rw [spelled, spelled', same_mark, same_body]
      have first : s = t := Step.toText_inj own own' same_text
      rw [first, ih restp restq later]

/-- Paths of plain steps are written differently. -/
theorem issuePath_inj {p q : List Step} (hp : ∀ s ∈ p, s.Plain) (hq : ∀ s ∈ q, s.Plain)
    (h : issuePath p = issuePath q) : p = q := by
  have chars := congrArg String.toList h
  rw [toList_issuePath, toList_issuePath, List.cons.injEq] at chars
  exact flatMap_toText_inj hp hq chars.2

end Excerpt
