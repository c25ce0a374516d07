import Excerpt.Text.Quoted
import Mathlib.Data.List.Infix

/-! Quoted text. No escape is the start of another one, so a quoted text is the quotation of
one text only, and it stays on one line. -/
namespace Excerpt.Quoted

/-- The characters that are escaped. -/
def escaped : List Char := '"' :: '\\' :: (List.range 0x20).map Char.ofNat

theorem escape_of_not_mem {c : Char} (h : c ∉ escaped) : escape c = [c] := by
  have low : ¬c.toNat < 0x20 := by
    intro low
    have own : c ∈ (List.range 0x20).map Char.ofNat :=
      List.mem_map.mpr ⟨c.toNat, List.mem_range.mpr low, Char.ofNat_toNat c⟩
    exact h (List.mem_cons_of_mem _ (List.mem_cons_of_mem _ own))
  unfold escape
  split
  case h_8 => exact if_neg low
  all_goals exact absurd (by decide) h

theorem head?_escape {c : Char} (h : c ∈ escaped) : (escape c).head? = some '\\' := by
  have each : escaped.all (fun c => (escape c).head? == some '\\') = true := by decide
  exact eq_of_beq (List.all_eq_true.mp each c h)

theorem eq_of_shorter_escape {c d : Char} (hc : c ∈ escaped) (hd : d ∈ escaped)
    (h : escape c <+: escape d) : c = d := by
  have each : escaped.all (fun c => escaped.all fun d =>
      !(escape c).isPrefixOf (escape d) || c == d) = true := by decide +kernel
  have own := List.all_eq_true.mp (List.all_eq_true.mp each c hc) d hd
  rw [List.isPrefixOf_iff_prefix.mpr h] at own
  exact eq_of_beq own

theorem escape_ne_nil (c : Char) : escape c ≠ [] := by
  by_cases own : c ∈ escaped
  · have first := head?_escape own
    intro empty
    rw [empty] at first
    cases first
  · rw [escape_of_not_mem own]
    exact List.cons_ne_nil c []

theorem feed_not_mem_escape (c : Char) : '\n' ∉ escape c := by
  by_cases own : c ∈ escaped
  · have each : escaped.all (fun c => !(escape c).contains '\n') = true := by decide +kernel
    have free := List.all_eq_true.mp each c own
    rwa [Bool.not_eq_true', ← Bool.not_eq_true, List.contains_iff_mem] at free
  · rw [escape_of_not_mem own, List.mem_singleton]
    rintro rfl
    exact own (by decide)

/-- The first character of a text can be told from its escape. -/
theorem escape_cancel {c d : Char} {a b : List Char} (h : escape c ++ a = escape d ++ b) :
    c = d ∧ a = b := by
  -- A backslash is escaped, so a character that is not does not look like an escape.
  have other {c d : Char} {a b : List Char} (own : c ∈ escaped) (plain : d ∉ escaped)
      (h : escape c ++ a = escape d ++ b) : False := by
    have first := congrArg List.head? h
    rw [List.head?_append_of_ne_nil _ (escape_ne_nil c), head?_escape own,
      escape_of_not_mem plain] at first
    cases first
    exact plain (by decide)
  by_cases hc : c ∈ escaped
  · by_cases hd : d ∈ escaped
    · have whole : escape c <+: escape d ++ b := h ▸ List.prefix_append _ _
      have same : c = d := by
        rcases List.prefix_or_prefix_of_prefix whole (List.prefix_append _ b) with shorter | longer
        · exact eq_of_shorter_escape hc hd shorter
        · exact (eq_of_shorter_escape hd hc longer).symm
      subst same
      exact ⟨rfl, List.append_cancel_left h⟩
    · exact (other hc hd h).elim
  · by_cases hd : d ∈ escaped
    · exact (other hd hc h.symm).elim
    · rw [escape_of_not_mem hc, escape_of_not_mem hd] at h
      exact List.cons.inj h

theorem flatMap_escape_injective {a b : List Char} (h : a.flatMap escape = b.flatMap escape) :
    a = b := by
  induction a generalizing b with
  | nil =>
    cases b with
    | nil => rfl
    | cons d b =>
      rw [List.flatMap_nil, List.flatMap_cons] at h
      exact absurd (List.append_eq_nil_iff.mp h.symm).1 (escape_ne_nil d)
  | cons c a ih =>
    cases b with
    | nil =>
      rw [List.flatMap_nil, List.flatMap_cons] at h
      exact absurd (List.append_eq_nil_iff.mp h).1 (escape_ne_nil c)
    | cons d b =>
      rw [List.flatMap_cons, List.flatMap_cons] at h
      obtain ⟨rfl, later⟩ := escape_cancel h
      rw [ih later]

theorem chars_quote (text : Strip) :
    (quote text).chars = '"' :: (text.chars.flatMap escape ++ ['"']) := by
  simp [quote]

theorem quote_injective {a b : Strip} (h : quote a = quote b) : a = b := by
  have chars := congrArg Strip.chars h
  rw [chars_quote, chars_quote, List.cons.injEq, List.append_left_inj] at chars
  exact Strip.ext_chars (flatMap_escape_injective chars.2)

theorem feed_not_mem_quote (text : Strip) : '\n' ∉ (quote text).chars := by
  rw [chars_quote, List.mem_cons, List.mem_append, List.mem_flatMap]
  rintro (quoted | ⟨c, _, inside⟩ | quoted)
  · cases quoted
  · exact feed_not_mem_escape c inside
  · simp at quoted

end Excerpt.Quoted
