import Excerpt.Proofs.Cells
import Excerpt.Trace
import Mathlib.Data.List.SplitBy

/-! Joined runs are the canonical form of runs. Runs show the same cells exactly when they
are joined to the same runs, up to how a style is written, and runs may be joined in parts.
Joining is refused when it would build a text that is too long. -/
namespace Excerpt

/-! ## Cells up to what their styles set -/

/-- A character and what its style sets. -/
def Cell.key (cell : Cell) : Char × Option (List Attribute) :=
  (cell.1, cell.2.map Style.attributes)

theorem sameCells_iff (a b : List Cell) : SameCells a b ↔ a.map Cell.key = b.map Cell.key := by
  rw [← List.forall₂_eq_eq_eq, List.forall₂_map_left_iff, List.forall₂_map_right_iff]
  simp only [SameCells, SameStyle, Cell.key, Prod.mk.injEq]

theorem SameCells.symm {a b : List Cell} (h : SameCells a b) : SameCells b a :=
  (sameCells_iff b a).mpr ((sameCells_iff a b).mp h).symm

namespace Run

/-- Runs of which none is empty, and no two neighbours have one style. -/
structure Canonical (runs : List Run) : Prop where
  filled : ∀ run ∈ runs, run.text.chars ≠ []
  differ : runs.IsChain fun a b => ¬SameStyle a.style b.style

/-- One text, under styles that set the same. -/
def Same (a b : Run) : Prop := a.text = b.text ∧ SameStyle a.style b.style

/-- The cells of a run, up to what its style sets. -/
def keys (run : Run) : List (Char × Option (List Attribute)) := run.cells.map Cell.key

/-- No text is too long when these runs are joined as far as they can be. -/
def Joinable (runs : List Run) : Prop :=
  ∀ joined, Canonical joined → SameCells (joined.flatMap cells) (runs.flatMap cells) →
    ∀ run ∈ joined, run.text.fits = true

theorem canonical_coalesce (runs : List Run) : Canonical (coalesce runs) :=
  ⟨filled_coalesce runs, differ_coalesce runs⟩

/-! ## Canonical runs are known by their cells -/

theorem map_key_flatMap_cells (runs : List Run) :
    (runs.flatMap cells).map Cell.key = (runs.map keys).flatten :=
  List.map_flatMap.trans List.flatMap_def

theorem keys_eq (run : Run) :
    run.keys = run.text.chars.map (·, run.style.map Style.attributes) := by
  rw [keys, cells, List.map_map]
  rfl

theorem snd_of_mem_keys {run : Run} {cell : Char × Option (List Attribute)}
    (h : cell ∈ run.keys) : cell.2 = run.style.map Style.attributes := by
  rw [keys_eq, List.mem_map] at h
  obtain ⟨_, _, rfl⟩ := h
  rfl

theorem keys_ne_nil {run : Run} (filled : run.text.chars ≠ []) : run.keys ≠ [] := by
  rw [keys_eq]
  exact mt List.map_eq_nil_iff.mp filled

/-- Runs with the same cells have the same text, if there is any. -/
theorem same_of_keys {a b : Run} (filled : a.text.chars ≠ []) (h : a.keys = b.keys) :
    Same a b := by
  obtain ⟨cell, own⟩ := List.exists_mem_of_ne_nil _ (keys_ne_nil filled)
  have chars : a.text.chars = b.text.chars := by
    have firsts := congrArg (List.map Prod.fst) h
    rw [keys_eq, keys_eq, List.map_map, List.map_map] at firsts
    simpa only [Function.comp_def, List.map_id_fun', id_eq] using firsts
  have style : a.style.map Style.attributes = b.style.map Style.attributes :=
    (snd_of_mem_keys own).symm.trans (snd_of_mem_keys (h ▸ own))
  exact ⟨Strip.ext_chars chars, style⟩

namespace Canonical

variable {a b : List Run}

/-- Cutting the cells of canonical runs wherever the style changes gives back the runs. -/
theorem splitBy (h : Canonical a) :
    ((a.flatMap cells).map Cell.key).splitBy (fun x y => decide (x.2 = y.2)) =
      a.map keys := by
  rw [map_key_flatMap_cells]
  refine List.splitBy_flatten ?filled ?within ?between
  case filled =>
    intro empty
    obtain ⟨run, own, none_shown⟩ := List.mem_map.mp empty
    exact keys_ne_nil (h.filled run own) none_shown
  case within =>
    intro cells own
    obtain ⟨run, _, rfl⟩ := List.mem_map.mp own
    refine List.Pairwise.isChain (List.pairwise_of_forall_mem_list fun x hx y hy => ?_)
    exact decide_eq_true ((snd_of_mem_keys hx).trans (snd_of_mem_keys hy).symm)
  case between =>
    rw [List.isChain_map]
    refine h.differ.imp_of_mem_imp fun run next own own' other => ?_
    refine ⟨keys_ne_nil (h.filled run own), keys_ne_nil (h.filled next own'), ?_⟩
    refine decide_eq_false fun same => other ?_
    rwa [snd_of_mem_keys (List.getLast_mem _), snd_of_mem_keys (List.head_mem _)] at same

/-- Canonical runs with the same cells are the same, up to how a style is written. -/
theorem unique (ha : Canonical a) (hb : Canonical b)
    (h : SameCells (a.flatMap cells) (b.flatMap cells)) : List.Forall₂ Same a b := by
  have keys : a.map keys = b.map keys := by
    rw [← ha.splitBy, ← hb.splitBy, (sameCells_iff _ _).mp h]
  have pairs : List.Forall₂ (fun x y => Run.keys x = Run.keys y) a b := by
    rwa [← List.forall₂_eq_eq_eq, List.forall₂_map_left_iff, List.forall₂_map_right_iff] at keys
  exact (List.forall₂_and_left _ _ |>.mpr ⟨ha.filled, pairs⟩).imp fun _ _ own =>
    same_of_keys own.1 own.2

end Canonical

/-- Runs that are the same one by one have the same cells. -/
theorem sameCells_of_same {a b : List Run} (h : List.Forall₂ Same a b) :
    SameCells (a.flatMap cells) (b.flatMap cells) := by
  induction h with
  | nil => exact .refl _
  | cons same _ ih =>
    obtain ⟨text, style⟩ := same
    refine .append ?_ ih
    rw [cells, cells, text]
    exact .restyle style _

/-! ## Joining in parts -/

theorem coalesce_eq_foldr (runs : List Run) : coalesce runs = runs.foldr joinFront [] := by
  induction runs with
  | nil => rfl
  | cons run runs ih => rw [coalesce, ih, List.foldr_cons]

/-- Putting two runs of one style in front is to put their text in front. -/
theorem joinFront_joinFront {run next : Run} (filled : ¬run.text.isEmpty)
    (later : ¬next.text.isEmpty) (same : SameStyle run.style next.style) (joined : List Run) :
    joinFront run (joinFront next joined) =
      joinFront ⟨run.style, run.text ++ next.text⟩ joined := by
  have both : ¬(run.text ++ next.text).isEmpty := by
    simp only [Strip.isEmpty_iff, Strip.chars_append, List.append_eq_nil_iff] at filled ⊢
    exact fun empty => filled empty.1
  cases joined with
  | nil => simp [joinFront, filled, later, both, same]
  | cons first rest =>
    by_cases again : SameStyle next.style first.style
    · have through := same.trans again
      simp [joinFront, filled, later, both, again, through, same, Strip.append_assoc]
    · have apart : ¬SameStyle run.style first.style :=
        fun through => again (same.symm.trans through)
      simp [joinFront, filled, later, both, again, apart, same]

/-- Runs may be joined before they are put in front of others. -/
theorem foldr_coalesce (runs joined : List Run) :
    (coalesce runs).foldr joinFront joined = runs.foldr joinFront joined := by
  induction runs with
  | nil => rfl
  | cons run runs ih =>
    -- What `run` is joined to is not empty, so the two can be put in front one by one.
    have filled := filled_coalesce runs
    rw [List.foldr_cons, ← ih, coalesce]
    generalize coalesce runs = front at filled ⊢
    rcases front with _ | ⟨next, rest⟩
    · by_cases empty : run.text.isEmpty <;> simp [joinFront, empty]
    · have later : ¬next.text.isEmpty :=
        mt (Strip.isEmpty_iff _).mp (filled next List.mem_cons_self)
      by_cases empty : run.text.isEmpty
      · simp [joinFront, empty]
      · by_cases same : SameStyle run.style next.style
        · rw [List.foldr_cons, joinFront_joinFront empty later same]
          simp [joinFront, empty, same]
        · simp [joinFront, empty, same]

theorem coalesce_append (xs ys : List Run) :
    coalesce (xs ++ ys) = coalesce (coalesce xs ++ coalesce ys) := by
  simp only [coalesce_eq_foldr, List.foldr_append]
  simp only [← coalesce_eq_foldr, foldr_coalesce]

theorem coalesce_coalesce (runs : List Run) : coalesce (coalesce runs) = coalesce runs := by
  rw [coalesce_eq_foldr (coalesce runs), foldr_coalesce, coalesce_eq_foldr]

/-! ## Texts that are too long -/

/-- Runs whose texts only get longer, with others after them. -/
inductive Extended : List Run → List Run → Prop
  | nil (later : List Run) : Extended [] later
  | cons {a b : Run} {as bs : List Run} (style : SameStyle a.style b.style)
      (text : a.text.units ≤ b.text.units) (rest : Extended as bs) : Extended (a :: as) (b :: bs)

theorem Extended.joinFront {as bs : List Run} (h : Extended as bs) (run : Run) :
    Extended (joinFront run as) (joinFront run bs) := by
  by_cases empty : run.text.isEmpty
  · simpa [Run.joinFront, empty] using h
  · cases h with
    | nil =>
      cases bs with
      | nil => simpa [Run.joinFront, empty] using .cons (.refl _) le_rfl (.nil _)
      | cons next later =>
        by_cases same : SameStyle run.style next.style
        · simpa [Run.joinFront, empty, same] using .cons (.refl _) (by simp) (.nil _)
        · simpa [Run.joinFront, empty, same] using .cons (.refl _) le_rfl (.nil _)
    | @cons a b as bs style text rest =>
      by_cases same : SameStyle run.style a.style
      · have same' := same.trans style
        simpa [Run.joinFront, empty, same, same'] using .cons (.refl _) (by simpa using text) rest
      · have other : ¬SameStyle run.style b.style := fun same' => same (same'.trans style.symm)
        simpa [Run.joinFront, empty, same, other] using
          .cons (.refl _) le_rfl (.cons style text rest)

theorem Extended.exists_longer {as bs : List Run} (h : Extended as bs) {run : Run}
    (own : run ∈ as) : ∃ longer ∈ bs, run.text.units ≤ longer.text.units := by
  induction h with
  | nil => cases own
  | cons _ text _ ih =>
    rcases List.mem_cons.mp own with rfl | own
    · exact ⟨_, List.mem_cons_self, text⟩
    · obtain ⟨longer, later, le⟩ := ih own
      exact ⟨longer, List.mem_cons_of_mem _ later, le⟩

theorem extended_coalesce (runs joined : List Run) :
    Extended (coalesce runs) (runs.foldr joinFront joined) := by
  induction runs with
  | nil => exact .nil _
  | cons run runs ih => exact ih.joinFront run

/-- What is put in front of runs leaves each of them whole. -/
theorem exists_longer_foldr (runs joined : List Run) {run : Run} (own : run ∈ joined) :
    ∃ longer ∈ runs.foldr joinFront joined, run.text.units ≤ longer.text.units := by
  induction runs with
  | nil => exact ⟨run, own, le_rfl⟩
  | cons first runs ih =>
    obtain ⟨longer, later, le⟩ := ih
    rw [List.foldr_cons]
    generalize runs.foldr joinFront joined = behind at later ⊢
    by_cases empty : first.text.isEmpty
    · exact ⟨longer, by simpa [joinFront, empty] using later, le⟩
    · rcases behind with _ | ⟨next, rest⟩
      · cases later
      · by_cases same : SameStyle first.style next.style
        · have eq : joinFront first (next :: rest) =
              ⟨first.style, first.text ++ next.text⟩ :: rest := by
            simp [joinFront, empty, same]
          rw [eq]
          rcases List.mem_cons.mp later with rfl | later
          · exact ⟨_, List.mem_cons_self, le.trans (by simp)⟩
          · exact ⟨longer, List.mem_cons_of_mem _ later, le⟩
        · refine ⟨longer, ?_, le⟩
          simpa [joinFront, empty, same] using .inr (List.mem_cons.mp later)

theorem fits_of_longer {a b : Strip} (le : a.units ≤ b.units) (fits : b.fits = true) :
    a.fits = true :=
  decide_eq_true (le.trans (of_decide_eq_true fits))

/-- Parts of runs that can be joined can be joined. -/
theorem fits_coalesce_parts {xs ys : List Run}
    (h : ∀ run ∈ coalesce (xs ++ ys), run.text.fits = true) :
    (∀ run ∈ coalesce xs, run.text.fits = true) ∧
      ∀ run ∈ coalesce ys, run.text.fits = true := by
  -- The parts are the same runs with less around them.
  have whole : coalesce (xs ++ ys) = xs.foldr joinFront (coalesce ys) := by
    rw [coalesce_eq_foldr, List.foldr_append, ← coalesce_eq_foldr]
  rw [whole] at h
  constructor <;> intro run own
  · obtain ⟨longer, later, le⟩ := (extended_coalesce xs _).exists_longer own
    exact fits_of_longer le (h longer later)
  · obtain ⟨longer, later, le⟩ := exists_longer_foldr xs _ own
    exact fits_of_longer le (h longer later)

/-! ## Joining, if no text is too long -/

theorem coalesce?_of_fits {xs : List Run} (h : ∀ run ∈ coalesce xs, run.text.fits = true) :
    coalesce? xs = .ok (coalesce xs) :=
  if_pos (List.all_eq_true.mpr h)

theorem coalesce?_of_not_fits {xs : List Run}
    (h : ¬∀ run ∈ coalesce xs, run.text.fits = true) : coalesce? xs = .error .tooLong :=
  if_neg (mt List.all_eq_true.mp h)

theorem coalesce?_eq_ok_iff {xs runs : List Run} :
    coalesce? xs = .ok runs ↔
      (∀ run ∈ coalesce xs, run.text.fits = true) ∧ coalesce xs = runs := by
  by_cases fits : ∀ run ∈ coalesce xs, run.text.fits = true
  · rw [coalesce?_of_fits fits, Except.ok.injEq, and_iff_right fits]
  · simp [coalesce?_of_not_fits fits, fits]

theorem coalesce?_congr {xs ys : List Run} (h : coalesce xs = coalesce ys) :
    coalesce? xs = coalesce? ys := by
  rw [coalesce?, coalesce?, h]

/-- What decides is whether the texts of the one canonical form fit. -/
theorem joinable_iff (runs : List Run) :
    Joinable runs ↔ ∀ run ∈ coalesce runs, run.text.fits = true := by
  constructor
  · exact fun h => h _ (canonical_coalesce runs) (sameCells_coalesce runs)
  · intro h joined canonical same run own
    have pairs : List.Forall₂ Same joined (coalesce runs) :=
      canonical.unique (canonical_coalesce runs) (same.trans (sameCells_coalesce runs).symm)
    have texts : joined.map text = (coalesce runs).map text := by
      rw [← List.forall₂_eq_eq_eq, List.forall₂_map_left_iff, List.forall₂_map_right_iff]
      exact pairs.imp fun _ _ same => same.1
    obtain ⟨run', own', eq⟩ := List.mem_map.mp (texts ▸ List.mem_map_of_mem own)
    exact eq ▸ h run' own'

theorem same_coalesce_iff (xs ys : List Run) :
    List.Forall₂ Same (coalesce xs) (coalesce ys) ↔
      SameCells (xs.flatMap cells) (ys.flatMap cells) := by
  constructor
  · intro same
    exact ((sameCells_coalesce xs).symm.trans (sameCells_of_same same)).trans
      (sameCells_coalesce ys)
  · intro same
    exact (canonical_coalesce xs).unique (canonical_coalesce ys)
      (((sameCells_coalesce xs).trans same).trans (sameCells_coalesce ys).symm)

/-- Runs are joined in parts, and refused where one of the parts is. -/
theorem coalesce?_append (xs ys : List Run) :
    coalesce? (xs ++ ys) = (do
      let front ← coalesce? xs
      let back ← coalesce? ys
      coalesce? (front ++ back)) := by
  by_cases front : ∀ run ∈ coalesce xs, run.text.fits = true
  · by_cases back : ∀ run ∈ coalesce ys, run.text.fits = true
    · rw [coalesce?_of_fits front, coalesce?_of_fits back]
      exact coalesce?_congr (coalesce_append xs ys)
    · rw [coalesce?_of_fits front, coalesce?_of_not_fits back]
      exact coalesce?_of_not_fits fun whole => back (fits_coalesce_parts whole).2
  · rw [coalesce?_of_not_fits front]
    exact coalesce?_of_not_fits fun whole => front (fits_coalesce_parts whole).1

theorem coalesce?_bind_coalesce? (xs : List Run) :
    (coalesce? xs >>= coalesce?) = coalesce? xs := by
  by_cases fits : ∀ run ∈ coalesce xs, run.text.fits = true
  · rw [coalesce?_of_fits fits]
    exact (coalesce?_congr (coalesce_coalesce xs)).trans (coalesce?_of_fits fits)
  · rw [coalesce?_of_not_fits fits]
    rfl

end Run

/-- Joining runs gives their canonical form. It fails only where that has a text that is too
long; what is joined is canonical and has the cells of the runs; runs that are joined are
joined alike exactly when they have the same cells; and runs may be joined part by part. -/
theorem joined_runs_canonical (xs ys : List Run) :
    ((∃ runs, Run.coalesce? xs = .ok runs) ↔ Run.Joinable xs) ∧
    (∀ fault, Run.coalesce? xs = .error fault → fault = .tooLong) ∧
    (∀ runs, Run.coalesce? xs = .ok runs →
      Run.Canonical runs ∧ SameCells (runs.flatMap Run.cells) (xs.flatMap Run.cells)) ∧
    (∀ runs others, Run.coalesce? xs = .ok runs → Run.coalesce? ys = .ok others →
      (List.Forall₂ Run.Same runs others ↔
        SameCells (xs.flatMap Run.cells) (ys.flatMap Run.cells))) ∧
    (Run.coalesce? (xs ++ ys) = do
      let front ← Run.coalesce? xs
      let back ← Run.coalesce? ys
      Run.coalesce? (front ++ back)) ∧
    (Run.coalesce? xs >>= Run.coalesce?) = Run.coalesce? xs := by
  refine ⟨?joins, ?fault, ?canonical, ?unique, Run.coalesce?_append xs ys,
    Run.coalesce?_bind_coalesce? xs⟩
  case joins =>
    rw [Run.joinable_iff]
    constructor
    · rintro ⟨runs, eq⟩
      exact (Run.coalesce?_eq_ok_iff.mp eq).1
    · exact fun fits => ⟨_, Run.coalesce?_of_fits fits⟩
  case fault =>
    intro fault failed
    by_cases fits : ∀ run ∈ Run.coalesce xs, run.text.fits = true
    · cases (Run.coalesce?_of_fits fits).symm.trans failed
    · exact (Except.error.inj ((Run.coalesce?_of_not_fits fits).symm.trans failed)).symm
  case canonical =>
    intro runs joined
    obtain ⟨_, rfl⟩ := Run.coalesce?_eq_ok_iff.mp joined
    exact ⟨Run.canonical_coalesce xs, Run.sameCells_coalesce xs⟩
  case unique =>
    intro runs others joined joined'
    obtain ⟨_, rfl⟩ := Run.coalesce?_eq_ok_iff.mp joined
    obtain ⟨_, rfl⟩ := Run.coalesce?_eq_ok_iff.mp joined'
    exact Run.same_coalesce_iff xs ys

namespace Sample

def underlined : Style := { Style.empty with underline := some true }

/-- Underlined, though written otherwise. -/
def alsoUnderlined : Style := { underlined with bold := some false }

def brokenRuns : List Run :=
  [⟨some underlined, "a"⟩, ⟨none, ""⟩, ⟨some alsoUnderlined, "b"⟩, ⟨some .empty, "c"⟩]

def otherRuns : List Run :=
  [⟨some alsoUnderlined, ""⟩, ⟨some alsoUnderlined, "ab"⟩, ⟨some .empty, "c"⟩]

def longRuns : List Run :=
  [⟨some underlined, .repeated Text.longest 'a'⟩, ⟨some alsoUnderlined, "b"⟩]

end Sample

theorem joined_runs_canonical_sample :
    Run.coalesce? Sample.brokenRuns =
        .ok [⟨some Sample.underlined, "ab"⟩, ⟨some .empty, "c"⟩] ∧
      Run.Canonical [⟨some Sample.underlined, "ab"⟩, ⟨some .empty, "c"⟩] ∧
      SameCells (Sample.brokenRuns.flatMap Run.cells) (Sample.otherRuns.flatMap Run.cells) ∧
      Run.Joinable Sample.brokenRuns := by
  obtain ⟨joins, _, canonical, unique, _, _⟩ :=
    joined_runs_canonical Sample.brokenRuns Sample.otherRuns
  have broken : Run.coalesce? Sample.brokenRuns =
      .ok [⟨some Sample.underlined, "ab"⟩, ⟨some .empty, "c"⟩] := by decide +kernel
  have other : Run.coalesce? Sample.otherRuns =
      .ok [⟨some Sample.alsoUnderlined, "ab"⟩, ⟨some .empty, "c"⟩] := by decide +kernel
  have pairs : List.Forall₂ Run.Same [⟨some Sample.underlined, "ab"⟩, ⟨some .empty, "c"⟩]
      [⟨some Sample.alsoUnderlined, "ab"⟩, ⟨some .empty, "c"⟩] :=
    .cons ⟨rfl, rfl⟩ (.cons ⟨rfl, rfl⟩ .nil)
  exact ⟨broken, (canonical _ broken).1, (unique _ _ broken other).mp pairs,
    joins.mp ⟨_, broken⟩⟩

/-- Two runs of one style, each with a text, that are too long to be joined. -/
theorem long_runs_not_joined :
    (∀ run ∈ Sample.longRuns, run.text.fits = true) ∧
      Run.coalesce? Sample.longRuns = .error .tooLong := by
  decide +kernel

end Excerpt
