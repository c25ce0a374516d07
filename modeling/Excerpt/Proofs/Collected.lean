import Excerpt.Device.Terminal
import Excerpt.Proofs.Cells
import Excerpt.Proofs.Device

/-! What a terminal collects. Each text of a trace is painted with the style that is active
when it is written; a terminal that collects these pieces ends with all of them joined, if
there is a text that long. -/
namespace Excerpt

namespace Trace

/-- The painted texts of some calls on a terminal on which a style is active. -/
def pieces {τ : Type} (paint : Option Style → τ → τ) (active : Option Style) :
    List (Call τ) → List τ
  | [] => []
  | .setStyle style :: calls => pieces paint (some style) calls
  | .resetStyle :: calls => pieces paint none calls
  | .write text :: calls => paint active text :: pieces paint active calls

end Trace

theorem Terminal.painted_none (style : Option Style) (text : Strip) :
    painted .none style text = text := by
  cases style <;> rfl

theorem Terminal.painted_congr (level : ColorLevel) {a b : Option Style} (h : SameStyle a b)
    (text : Strip) : painted level a text = painted level b text := by
  cases a with
  | none =>
    cases b with
    | none => rfl
    | some b => cases h
  | some a =>
    cases b with
    | none => cases h
    | some b =>
      have same : a.attributes = b.attributes := Option.some.inj h
      cases level <;> simp only [painted, same]

/-- The runs of a document are painted one by one. -/
def Run.paintedOn (level : ColorLevel) (run : Run) : Strip :=
  Terminal.painted level run.style run.text

namespace Trace

theorem pieces_styledFrom (level : ColorLevel) (active : Option Style) (runs : List Run) :
    pieces (Terminal.painted level) active (styledFrom active runs) =
      runs.map (Run.paintedOn level) := by
  induction runs generalizing active with
  | nil => cases active <;> rfl
  | cons run runs ih =>
    obtain ⟨_ | style, text⟩ := run
    · rw [List.map_cons, ← ih none]
      cases active <;> rfl
    · rw [styledFrom]
      split
      · rename_i alike
        rw [List.map_cons, ← ih active, pieces, Terminal.painted_congr level alike]
        rfl
      · rw [List.map_cons, ← ih (some style)]
        rfl

theorem pieces_plain (active : Option Style) (runs : List Run) :
    pieces (Terminal.painted .none) active (plain runs) = runs.map (Run.paintedOn .none) := by
  induction runs with
  | nil => rfl
  | cons run runs ih =>
    rw [List.map_cons, ← ih, Run.paintedOn, Terminal.painted_none]
    rw [plain, List.map_cons, pieces, Terminal.painted_none]
    rfl

theorem pieces_ofRuns (level : ColorLevel) (runs : List Run) :
    pieces (Terminal.painted level) none (ofRuns (level != .none) runs) =
      runs.map (Run.paintedOn level) := by
  cases level with
  | none => exact pieces_plain none runs
  | basic | extended | full => exact pieces_styledFrom _ none runs

end Trace

theorem Strip.fitting?_of_long {s : Strip} (h : Text.longest < s.units) :
    s.fitting? = .error .tooLong := by
  rw [fitting?, fits, decide_eq_false (Nat.not_le.mpr h)]
  rfl

theorem Strip.eq_of_fitting? {s text : Strip} (h : s.fitting? = .ok text) : s = text := by
  unfold fitting? at h
  split at h
  · exact Except.ok.inj h
  · cases h

theorem Strip.fitting?_of_fits {s : Strip} (h : s.units ≤ Text.longest) : s.fitting? = .ok s := by
  rw [fitting?, fits, decide_eq_true h]
  rfl

theorem Strip.fitting?_eq_ok_iff {s text : Strip} :
    s.fitting? = .ok text ↔ s = text ∧ s.units ≤ Text.longest := by
  by_cases short : s.units ≤ Text.longest
  · rw [fitting?_of_fits short, Except.ok.injEq, and_iff_left short]
  · simp [fitting?_of_long (Nat.lt_of_not_le short), short]

theorem Strip.fitting?_eq_error_iff {s : Strip} {fault : TextFault} :
    s.fitting? = .error fault ↔ fault = .tooLong ∧ Text.longest < s.units := by
  by_cases short : s.units ≤ Text.longest
  · simp [fitting?_of_fits short, short]
  · rw [fitting?_of_long (Nat.lt_of_not_le short), Except.error.injEq,
      and_iff_left (Nat.lt_of_not_le short), eq_comm]

theorem Strip.exists_fitting?_iff {s : Strip} :
    (∃ text, s.fitting? = .ok text) ↔ s.units ≤ Text.longest := by
  simp only [fitting?_eq_ok_iff, exists_eq_left']

namespace Transcript

theorem fitting?_text (t : Transcript) : (t.text ++ Strip.join []).fitting? = .ok t.text := by
  have whole : t.text ++ Strip.join [] = t.text := Strip.ext_chars (by simp)
  rw [whole, Strip.fitting?_of_fits (t.units_text ▸ t.units_le)]

/-- A piece is taken behind the text there is; one that is refused makes the text too long,
whatever would follow. -/
theorem put_cases (t : Transcript) (piece rest : Strip) :
    (t.put piece).2 = none ∧ (t.put piece).1.text = t.text ++ piece ∨
      (∃ fault, (t.put piece).2 = some fault) ∧
        (t.text ++ (piece ++ rest)).fitting? = .error .tooLong := by
  by_cases short : piece.units + t.units ≤ Text.longest
  · have taken := (t.put_eq_none_iff piece).mpr short
    refine .inl ⟨taken, ?_⟩
    rw [text_put, if_pos taken]
  · refine .inr ⟨Option.ne_none_iff_exists'.mp (mt (t.put_eq_none_iff piece).mp short), ?_⟩
    apply Strip.fitting?_of_long
    rw [Strip.units_append, Strip.units_append, t.units_text]
    omega

end Transcript

/-- A terminal collects the pieces behind what it has, up to the longest text. -/
theorem Device.text?_feed (level : ColorLevel) (active : Option Style) (t : Transcript)
    (calls : List Call) :
    let fed := (Device.terminal level Sink.text).feed ⟨active, t⟩ calls
    Transcript.text? (fed.1.sink, fed.2) =
      (t.text ++ Strip.join (Trace.pieces (Terminal.painted level) active calls)).fitting? := by
  induction calls generalizing active t with
  | nil => exact t.fitting?_text.symm
  | cons call calls ih =>
    cases call with
    | setStyle style => exact ih (some style) t
    | resetStyle => exact ih none t
    | write text =>
      let painted := Terminal.painted level active text
      let rest := Strip.join (Trace.pieces (Terminal.painted level) active calls)
      have joined : Strip.join (Trace.pieces (Terminal.painted level) active
          (.write text :: calls)) = painted ++ rest := rfl
      rw [joined]
      rcases t.put_cases painted rest with ⟨taken, own⟩ | ⟨⟨fault, failed⟩, long⟩
      · have short := (t.put_eq_none_iff painted).mp taken
        have fits : painted.fits = true := decide_eq_true (by omega)
        have accepted : (terminal level Sink.text).accept ⟨active, t⟩ (.write text) =
            (⟨active, (t.put painted).1⟩, none) := by
          show (if painted.fits then _ else _) = _
          rw [if_pos fits, ← taken]
          rfl
        simp only [feed, accepted]
        rw [← Strip.append_assoc, ← own]
        exact ih active _
      · have refused : ∃ next fault, (terminal level Sink.text).accept ⟨active, t⟩ (.write text) =
            (next, some fault) := by
          cases fits : painted.fits with
          | false => exact ⟨⟨active, t⟩, .ofText .tooLong, if_neg (by rw [fits]; decide)⟩
          | true =>
            refine ⟨⟨active, (t.put painted).1⟩, fault, ?_⟩
            show (if painted.fits then _ else _) = _
            rw [if_pos fits, ← failed]
            rfl
        obtain ⟨next, fault, refused⟩ := refused
        simp only [feed, refused]
        rw [long]
        rfl

/-! ## Painting only adds -/

namespace Ansi

open Text (unitsOf)

theorem units_le_insertAfter {mark : List Char} (filled : mark ≠ []) (added cs : List Char) :
    unitsOf cs ≤ unitsOf (insertAfter mark added cs) := by
  fun_induction insertAfter mark added cs with
  | case1 => exact Nat.le_refl _
  | case2 c cs found ih =>
    obtain ⟨rest, split⟩ := List.isPrefixOf_iff_prefix.mp found
    have behind : cs.drop (mark.length - 1) = rest := by
      cases mark with
      | nil => exact absurd rfl filled
      | cons m mark =>
        cases split
        exact List.drop_left
    rw [behind] at ih ⊢
    rw [← split, Text.unitsOf_append, Text.unitsOf_append, Text.unitsOf_append]
    omega
  | case3 c cs _ ih => exact Nat.add_le_add_left ih _

theorem units_le_reopen (attributes : List Attribute) (cs : List Char) :
    unitsOf cs ≤ unitsOf (reopen attributes cs) := by
  induction attributes with
  | nil => exact Nat.le_refl _
  | cons a attributes ih =>
    have filled : sequence (closeCode a) ≠ [] := List.cons_ne_nil _ _
    exact Nat.le_trans ih (units_le_insertAfter filled _ _)

theorem units_le_breakAtLineEnds (closing opening cs : List Char) :
    unitsOf cs ≤ unitsOf (breakAtLineEnds closing opening cs) := by
  have cons (c : Char) (cs : List Char) : unitsOf (c :: cs) = Text.charUnits c + unitsOf cs := rfl
  fun_induction breakAtLineEnds closing opening cs with
  | case1 => exact Nat.le_refl _
  | case2 cs ih =>
    simp only [Text.unitsOf_append, cons]
    omega
  | case3 cs ih =>
    simp only [Text.unitsOf_append, cons]
    omega
  | case4 c cs _ _ ih => exact Nat.add_le_add_left ih _

theorem units_le_paintChars (attributes : List Attribute) (cs : List Char) :
    unitsOf cs ≤ unitsOf (paintChars attributes cs) := by
  have reopened : unitsOf cs ≤ unitsOf (if '\x1b' ∈ cs then reopen attributes cs else cs) := by
    split
    · exact units_le_reopen attributes cs
    · exact Nat.le_refl _
  have broken := units_le_breakAtLineEnds (closeAll attributes) (openAll attributes)
    (if '\x1b' ∈ cs then reopen attributes cs else cs)
  unfold paintChars
  split
  · exact Nat.le_refl _
  · rw [Text.unitsOf_append, Text.unitsOf_append]
    omega

end Ansi

theorem Run.units_le_paintedOn (level : ColorLevel) (run : Run) :
    run.text.units ≤ (run.paintedOn level).units := by
  obtain ⟨_ | style, text⟩ := run
  · cases level <;> exact Nat.le_refl _
  · have painted : text.units ≤ (Ansi.paint style.attributes text).units := by
      rw [Strip.units_eq, Strip.units_eq, Ansi.chars_paint]
      exact Ansi.units_le_paintChars _ _
    cases level with
    | none => exact Nat.le_refl _
    | basic | extended | full => exact painted

theorem Strip.units_le_join {s : Strip} {strips : List Strip} (h : s ∈ strips) :
    s.units ≤ (join strips).units := by
  obtain ⟨before, after, rfl⟩ := List.append_of_mem h
  simp only [Strip.units_eq, chars_join, List.flatMap_append, List.flatMap_cons,
    Text.unitsOf_append]
  omega

namespace Document

/-- The joined runs of a document as they are painted, one after the other. -/
def paintedOn (document : Document) (level : ColorLevel) : Strip :=
  .join ((Run.coalesce document.runs).map (Run.paintedOn level))

theorem chars_paintedOn_none (document : Document) :
    (document.paintedOn .none).chars = document.texts.flatMap Strip.chars := by
  rw [← document.chars_runs, ← Run.chars_coalesce, paintedOn, Strip.chars_join, List.flatMap_map]
  exact List.flatMap_congr fun run _ =>
    congrArg Strip.chars (Terminal.painted_none run.style run.text)

/-- A terminal that collects a document ends with its painted runs, if there is a text that
long. -/
theorem onTerminal_eq (document : Document) (level : ColorLevel) :
    document.onTerminal level = (document.paintedOn level).fitting? := by
  by_cases fits : document.Fits
  · have whole : (Transcript.empty.text ++ document.paintedOn level) = document.paintedOn level :=
      Strip.empty_append _
    rw [onTerminal, Device.render_of_fits _ _ fits, ← whole, paintedOn, ← Trace.pieces_ofRuns]
    exact Device.text?_feed level none .empty _
  · have long : Text.longest < (document.paintedOn level).units := by
      obtain ⟨run, joined, long⟩ := exists_long_run fits
      have own := run.units_le_paintedOn level
      have inside : (run.paintedOn level).units ≤ (document.paintedOn level).units :=
        Strip.units_le_join (List.mem_map_of_mem joined)
      omega
    rw [onTerminal, Device.render_of_not_fits _ _ fits, Strip.fitting?_of_long long]
    rfl

end Document
end Excerpt
