/-! Stretches: characters that are repeated. In a list of joined stretches no
stretch is empty and neighbours differ, so the characters determine the list. -/
namespace Excerpt

/-- A character that is repeated. -/
structure Stretch where
  char : Char
  count : Nat
  deriving DecidableEq, Repr

namespace Stretch

def chars (s : Stretch) : List Char := List.replicate s.count s.char

/-- No stretch is empty, and neighbours have different characters. -/
def Joined : List Stretch → Prop
  | [] => True
  | s :: rest => 0 < s.count ∧ (∀ next ∈ rest.head?, next.char ≠ s.char) ∧ Joined rest

/-- Puts a stretch in front of others, the first of which may take it in. -/
def pushFront (c : Char) (count : Nat) (stretches : List Stretch) : List Stretch :=
  if count = 0 then stretches
  else
    match stretches with
    | [] => [⟨c, count⟩]
    | s :: rest => if s.char = c then ⟨c, count + s.count⟩ :: rest else ⟨c, count⟩ :: s :: rest

theorem joined_pushFront {c : Char} {count : Nat} {stretches : List Stretch}
    (h : Joined stretches) : Joined (pushFront c count stretches) := by
  unfold pushFront
  split
  · exact h
  · rename_i positive
    cases stretches with
    | nil => exact ⟨Nat.pos_of_ne_zero positive, by simp, trivial⟩
    | cons s rest =>
      obtain ⟨_, differs, joined⟩ := h
      by_cases same : s.char = c
      · simp only [if_pos same]
        exact ⟨by simp only; omega, by simpa [same] using differs, joined⟩
      · simp only [if_neg same]
        exact ⟨Nat.pos_of_ne_zero positive, by simpa using same, ‹_›, differs, joined⟩

theorem flatMap_pushFront (c : Char) (count : Nat) (stretches : List Stretch) :
    (pushFront c count stretches).flatMap chars =
      List.replicate count c ++ stretches.flatMap chars := by
  unfold pushFront
  split
  · rename_i zero; simp [zero]
  · cases stretches with
    | nil => simp [chars]
    | cons s rest =>
      by_cases same : s.char = c
      · simp [same, chars, List.replicate_append_replicate, ← List.append_assoc]
      · simp [same, chars]

/-- The first characters of joined stretches tell how long the first stretch is. -/
theorem takeWhile_chars {s : Stretch} {rest : List Stretch} (h : Joined (s :: rest)) :
    ((s :: rest).flatMap chars).takeWhile (· == s.char) = s.chars ∧
      ((s :: rest).flatMap chars).dropWhile (· == s.char) = rest.flatMap chars := by
  have stop : ∀ c ∈ (rest.flatMap chars).head?, (c == s.char) = false := by
    intro c hc
    cases rest with
    | nil => simp at hc
    | cons next rest =>
      obtain ⟨_, differs, positive, _⟩ := h
      obtain ⟨count, hn⟩ := Nat.exists_eq_succ_of_ne_zero (Nat.ne_of_gt positive)
      simp only [List.flatMap_cons, chars, hn, List.replicate_succ, List.cons_append,
        List.head?_cons, Option.mem_def, Option.some.injEq] at hc
      subst hc
      simpa using differs next rfl
  rw [List.flatMap_cons, chars]
  constructor
  · rw [List.takeWhile_append_of_pos fun c hc => by simp [(List.mem_replicate.1 hc).2]]
    cases hr : rest.flatMap chars with
    | nil => simp
    | cons c cs =>
      have := stop c (by rw [hr]; rfl)
      simp [this]
  · rw [List.dropWhile_append_of_pos fun c hc => by simp [(List.mem_replicate.1 hc).2]]
    cases hr : rest.flatMap chars with
    | nil => rfl
    | cons c cs =>
      have := stop c (by rw [hr]; rfl)
      simp [this]

theorem eq_of_flatMap_eq {a b : List Stretch} (ha : Joined a) (hb : Joined b)
    (h : a.flatMap chars = b.flatMap chars) : a = b := by
  induction a generalizing b with
  | nil =>
    cases b with
    | nil => rfl
    | cons t rest =>
      have := congrArg List.length h
      have := hb.1
      simp only [List.flatMap_nil, List.length_nil, List.flatMap_cons, List.length_append, chars,
        List.length_replicate] at *
      omega
  | cons s rest ih =>
    cases b with
    | nil =>
      have := congrArg List.length h
      have := ha.1
      simp only [List.flatMap_nil, List.length_nil, List.flatMap_cons, List.length_append, chars,
        List.length_replicate] at *
      omega
    | cons t others =>
      have same : s.char = t.char := by
        obtain ⟨m, hm⟩ := Nat.exists_eq_succ_of_ne_zero (Nat.ne_of_gt ha.1)
        obtain ⟨n, hn⟩ := Nat.exists_eq_succ_of_ne_zero (Nat.ne_of_gt hb.1)
        have := congrArg List.head? h
        simpa [chars, hm, hn, List.replicate_succ] using this
      obtain ⟨takeA, dropA⟩ := takeWhile_chars ha
      obtain ⟨takeB, dropB⟩ := takeWhile_chars hb
      rw [h, same, takeB] at takeA
      rw [h, same, dropB] at dropA
      have count : t.count = s.count := by simpa [chars] using congrArg List.length takeA
      have first : s = t := by cases s; cases t; simp_all
      rw [first, ih ha.2.2 hb.2.2 dropA.symm]

end Stretch

end Excerpt
