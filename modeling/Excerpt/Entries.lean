/-! Entries by key, in the order in which their keys were first set. -/
namespace Excerpt

abbrev Entries (κ α : Type) := List (κ × α)

namespace Entries

variable {κ α : Type} [DecidableEq κ]

/-- Sets the value of a key; a key that is set again keeps its place. -/
def set (entries : Entries κ α) (key : κ) (value : α) : Entries κ α :=
  match entries with
  | [] => [(key, value)]
  | entry :: rest =>
    if entry.1 = key then (key, value) :: rest else entry :: set rest key value

def ofList (entries : List (κ × α)) : Entries κ α :=
  entries.foldl (fun entries (key, value) => set entries key value) []

theorem lookup_set (entries : Entries κ α) (key : κ) (value : α) (other : κ) :
    (set entries key value).lookup other =
      if other = key then some value else entries.lookup other := by
  induction entries with
  | nil =>
    by_cases h : other = key
    · simp [set, h]
    · simp [set, List.lookup_cons, h, beq_eq_false_iff_ne.mpr h]
  | cons entry rest ih =>
    obtain ⟨k, v⟩ := entry
    by_cases hk : k = key
    · subst hk
      by_cases h : other = k
      · simp [set, h]
      · simp [set, List.lookup_cons, h, beq_eq_false_iff_ne.mpr h]
    · by_cases h : other = k
      · subst h
        simp [set, hk]
      · simp [set, hk, List.lookup_cons, beq_eq_false_iff_ne.mpr h, ih]

end Entries
end Excerpt
