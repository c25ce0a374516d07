import Excerpt.Style
import Mathlib.Data.List.Nodup

/-! How styles are named. The names of attributes are words of small letters and colons, so
they can be told apart again when they are put together: the text of a style says what it
sets, and nothing else. -/
namespace Excerpt

namespace Text

theorem mem_intercalate {separator c : Char} {words : List (List Char)}
    (h : c ∈ [separator].intercalate words) : c = separator ∨ ∃ word ∈ words, c ∈ word := by
  induction words with
  | nil => simp at h
  | cons word words ih =>
    cases words with
    | nil => exact .inr ⟨word, List.mem_singleton_self word, by simpa using h⟩
    | cons next words =>
      rw [List.intercalate_cons_cons, List.mem_append, List.mem_append, List.mem_singleton] at h
      rcases h with (own | own) | later
      · exact .inr ⟨word, List.mem_cons_self, own⟩
      · exact .inl own
      · exact (ih later).imp_right fun ⟨other, inside, own⟩ =>
          ⟨other, List.mem_cons_of_mem word inside, own⟩

/-- Words that are put together can be parted again, if none is empty or has the separator. -/
theorem eq_of_intercalate_eq {separator : Char} {a b : List (List Char)}
    (ha : ∀ word ∈ a, word ≠ [] ∧ separator ∉ word)
    (hb : ∀ word ∈ b, word ≠ [] ∧ separator ∉ word)
    (h : [separator].intercalate a = [separator].intercalate b) : a = b := by
  have parted {words : List (List Char)} (filled : words ≠ [])
      (own : ∀ word ∈ words, word ≠ [] ∧ separator ∉ word) :
      ([separator].intercalate words).splitOn separator = words :=
    List.splitOn_intercalate separator (fun word inside => (own word inside).2) filled
  have none_left {words : List (List Char)} (own : ∀ word ∈ words, word ≠ [] ∧ separator ∉ word)
      (empty : [separator].intercalate words = []) : words = [] := by
    by_contra filled
    have split := parted filled own
    rw [empty, List.splitOn_nil] at split
    exact (own [] (split ▸ List.mem_singleton_self [])).1 rfl
  by_cases empty : a = []
  · subst empty
    exact (none_left hb h.symm).symm
  · by_cases empty' : b = []
    · subst empty'
      exact none_left ha h
    · rw [← parted empty ha, h, parted empty' hb]

end Text

namespace Attribute

def all : List Attribute := Color.all.map foreground ++ [bold, dim, italic, underline]

theorem mem_all (a : Attribute) : a ∈ all := by
  cases a with
  | foreground color => cases color <;> decide
  | bold | dim | italic | underline => decide

theorem name_injective : Function.Injective name := by
  intro a b h
  have nodup : (all.map name).Nodup := by decide
  exact List.inj_on_of_nodup_map nodup (mem_all a) (mem_all b) h

/-- The letters of a name. -/
theorem isLower_of_mem_name (a : Attribute) {c : Char} (h : c ∈ a.name.toList) :
    c.isLower = true ∨ c = ':' := by
  have each : all.all (fun a => a.name.toList.all fun c => c.isLower || c == ':') = true := by
    decide
  have own := List.all_eq_true.mp (List.all_eq_true.mp each a (mem_all a)) c h
  rwa [Bool.or_eq_true, beq_iff_eq] at own

theorem name_ne_nil (a : Attribute) : a.name.toList ≠ [] := by
  have each : ∀ a ∈ all, a.name.toList ≠ [] := by decide
  exact each a (mem_all a)

end Attribute

namespace Style

theorem toList_toText (s : Style) :
    s.toText.toList = [' '].intercalate (s.attributes.map fun a => a.name.toList) := by
  rw [toText, String.toList_intercalate, List.map_map]
  rfl

/-- The letters of the text of a style. -/
theorem isLower_of_mem_toText {s : Style} {c : Char} (h : c ∈ s.toText.toList) :
    c.isLower = true ∨ c = ':' ∨ c = ' ' := by
  rw [toList_toText] at h
  rcases Text.mem_intercalate h with space | ⟨word, inside, own⟩
  · exact .inr (.inr space)
  · obtain ⟨a, _, rfl⟩ := List.mem_map.mp inside
    exact (a.isLower_of_mem_name own).imp_right .inl

/-- Styles have the same text if they set the same. -/
theorem toText_eq_iff {a b : Style} : a.toText = b.toText ↔ a.attributes = b.attributes := by
  constructor
  · intro h
    have words (s : Style) : ∀ word ∈ s.attributes.map fun a => a.name.toList,
        word ≠ [] ∧ ' ' ∉ word := by
      intro word inside
      obtain ⟨a, _, rfl⟩ := List.mem_map.mp inside
      refine ⟨a.name_ne_nil, fun space => ?_⟩
      exact absurd (a.isLower_of_mem_name space) (by decide)
    have joined := congrArg String.toList h
    rw [toList_toText, toList_toText] at joined
    have names := Text.eq_of_intercalate_eq (words a) (words b) joined
    have apart : Function.Injective fun a : Attribute => a.name.toList :=
      fun _ _ same => Attribute.name_injective (String.toList_injective same)
    exact apart.list_map names
  · intro h
    rw [toText, toText, h]

end Style
end Excerpt
