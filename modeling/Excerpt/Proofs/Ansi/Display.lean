import Excerpt.Ansi

/-! Color displays. A display takes characters one by one: escape sequences select the
rendition of what follows, and every other character is shown in the selected one. -/
namespace Excerpt

/-- How a character is shown. -/
structure Rendition where
  foreground : Option Color
  bold : Bool
  dim : Bool
  italic : Bool
  underline : Bool
  deriving DecidableEq, Repr

/-- A character as it is shown. -/
abbrev Glyph := Char × Rendition

namespace Rendition

/-- No attribute at all. -/
def plain : Rendition := ⟨none, false, false, false, false⟩

/-- What a code selects. Bold and dim are switched on one by one and off together. -/
def select (r : Rendition) (code : Nat) : Rendition :=
  match code with
  | 1 => { r with bold := true }
  | 2 => { r with dim := true }
  | 3 => { r with italic := true }
  | 4 => { r with underline := true }
  | 22 => { r with bold := false, dim := false }
  | 23 => { r with italic := false }
  | 24 => { r with underline := false }
  | 39 => { r with foreground := none }
  | _ => if 30 ≤ code ∧ code ≤ 37 then { r with foreground := Color.all[code - 30]? } else r

end Rendition

/-- Where a display is in a sequence: outside, behind its first character, or behind the
digits of a number. -/
inductive DisplayMode where
  | text
  | escape
  | number (value : Nat)
  deriving DecidableEq, Repr

structure Display where
  rendition : Rendition
  mode : DisplayMode
  shown : List Glyph
  deriving DecidableEq, Repr

namespace Display

def blank : Display := ⟨.plain, .text, []⟩

/-- Takes a character. A sequence of another form is dropped at the character that breaks it. -/
def take (d : Display) (c : Char) : Display :=
  match d.mode with
  | .text =>
    if c = '\x1b' then { d with mode := .escape }
    else { d with shown := d.shown ++ [(c, d.rendition)] }
  | .escape => { d with mode := if c = '[' then .number 0 else .text }
  | .number value =>
    if c.isDigit then { d with mode := .number (10 * value + (c.toNat - '0'.toNat)) }
    else if c = 'm' then { d with rendition := d.rendition.select value, mode := .text }
    else { d with mode := .text }

def run (d : Display) (cs : List Char) : Display := cs.foldl take d

/-- Nothing is selected, and no sequence is open. -/
def Resting (d : Display) : Prop := d.rendition = .plain ∧ d.mode = .text

instance (d : Display) : Decidable d.Resting := inferInstanceAs (Decidable (_ ∧ _))

theorem run_append (d : Display) (a b : List Char) : d.run (a ++ b) = (d.run a).run b :=
  List.foldl_append

theorem run_digits (r : Rendition) (shown : List Glyph) (value : Nat) {digits : List Char}
    (h : ∀ c ∈ digits, c.isDigit = true) :
    (Display.mk r (.number value) shown).run digits =
      ⟨r, .number (Nat.ofDigitChars 10 digits value), shown⟩ := by
  induction digits generalizing value with
  | nil => rfl
  | cons c digits ih =>
    obtain ⟨digit, digits_left⟩ := List.forall_mem_cons.mp h
    have step : (Display.mk r (.number value) shown).take c =
        ⟨r, .number (10 * value + (c.toNat - '0'.toNat)), shown⟩ := by
      simp only [take, if_pos digit]
    rw [run, List.foldl_cons, step, Nat.ofDigitChars_cons]
    exact ih _ digits_left

/-- A sequence selects its code and shows nothing. -/
theorem run_sequence (r : Rendition) (shown : List Glyph) (code : Nat) :
    (Display.mk r .text shown).run (Ansi.sequence code) = ⟨r.select code, .text, shown⟩ := by
  have digits : ∀ c ∈ Nat.toDigits 10 code, c.isDigit = true :=
    fun c member => Nat.isDigit_of_mem_toDigits (by decide) (by decide) member
  have front : (Display.mk r .text shown).run (Ansi.sequence code) =
      ((Display.mk r (.number 0) shown).run (Nat.toDigits 10 code)).take 'm' := by
    rw [Ansi.sequence, List.cons_append, List.cons_append, run, List.foldl_cons, List.foldl_cons,
      List.foldl_append]
    rfl
  rw [front, run_digits _ _ _ digits, Nat.ofDigitChars_toDigits (by decide) (by decide)]
  rfl

end Display

/-- Text without its sequences, which are made of digits and semicolons between a bracket
and an `m`. -/
def Ansi.withoutSequences : List Char → List Char
  | [] => []
  | c :: cs =>
    let behind := cs.tail.dropWhile fun c => c.isDigit || c == ';'
    if c = '\x1b' ∧ cs.head? = some '[' ∧ behind.head? = some 'm' then
      withoutSequences behind.tail
    else c :: withoutSequences cs
  termination_by cs => cs.length
  decreasing_by
    · have short := (List.dropWhile_sublist (l := cs.tail) fun c => c.isDigit || c == ';').length_le
      simp only [List.length_tail, List.length_cons] at short ⊢
      omega
    · exact Nat.lt_succ_self _

namespace Ansi

theorem withoutSequences_cons {c : Char} (h : c ≠ '\x1b') (cs : List Char) :
    withoutSequences (c :: cs) = c :: withoutSequences cs := by
  rw [withoutSequences, if_neg fun found => h found.1]

theorem withoutSequences_sequence (code : Nat) (rest : List Char) :
    withoutSequences (sequence code ++ rest) = withoutSequences rest := by
  have digits : ∀ c ∈ Nat.toDigits 10 code, (c.isDigit || c == ';') = true := by
    intro c member
    rw [Nat.isDigit_of_mem_toDigits (by decide) (by decide) member, Bool.true_or]
  have behind : (Nat.toDigits 10 code ++ 'm' :: rest).dropWhile
      (fun c => c.isDigit || c == ';') = 'm' :: rest := by
    rw [List.dropWhile_append_of_pos digits]
    rfl
  have split : sequence code ++ rest = '\x1b' :: '[' :: (Nat.toDigits 10 code ++ 'm' :: rest) := by
    simp [sequence]
  rw [split, withoutSequences]
  simp only [List.tail_cons, List.head?_cons, behind, and_self, if_true]

end Ansi

/-! ## What some characters show -/

/-- Characters that a display takes where `before` is selected: what they show, and what is
selected behind them. They bring whole sequences, less which they are what they show, and
nothing is selected at their line feeds. -/
structure Shows (before : Rendition) (cs : List Char) (glyphs : List Glyph) (after : Rendition) :
    Prop where
  run : ∀ shown, (Display.mk before .text shown).run cs = ⟨after, .text, shown ++ glyphs⟩
  rests : ∀ front back, cs = front ++ '\n' :: back →
    ∀ shown, ((Display.mk before .text shown).run front).Resting
  stripped : ∀ rest, Ansi.withoutSequences (cs ++ rest) =
    glyphs.map (·.1) ++ Ansi.withoutSequences rest

namespace Shows

variable {a b c : Rendition}

theorem nil (r : Rendition) : Shows r [] [] r where
  run shown := by rw [List.append_nil]; rfl
  rests front back h := by simp at h
  stripped rest := rfl

theorem char {r : Rendition} {c : Char} (text : c ≠ '\x1b') (rest : c = '\n' → r = .plain) :
    Shows r [c] [(c, r)] r where
  run shown := by simp [Display.run, Display.take, text]
  rests front back h shown := by
    obtain ⟨rfl, own⟩ | ⟨_, _, h⟩ := List.cons_eq_append_iff.mp h
    · cases own
      exact ⟨rest rfl, rfl⟩
    · simp at h
  stripped rest := Ansi.withoutSequences_cons text rest

theorem sequence (r : Rendition) (code : Nat) :
    Shows r (Ansi.sequence code) [] (r.select code) where
  run shown := by rw [Display.run_sequence, List.append_nil]
  rests front back h := by
    have inside : '\n' ∈ Ansi.sequence code := by simp [h]
    simp only [Ansi.sequence, List.cons_append, List.mem_cons, List.mem_append, List.not_mem_nil,
      or_false] at inside
    rcases inside with h | h | h | h
    · exact absurd h (by decide)
    · exact absurd h (by decide)
    · exact absurd (Nat.isDigit_of_mem_toDigits (by decide) (by decide) h) (by decide)
    · exact absurd h (by decide)
  stripped rest := Ansi.withoutSequences_sequence code rest

theorem append {cs ds : List Char} {first second : List Glyph} (h : Shows a cs first b)
    (h' : Shows b ds second c) : Shows a (cs ++ ds) (first ++ second) c where
  run shown := by rw [Display.run_append, h.run, h'.run, List.append_assoc]
  rests front back split shown := by
    obtain ⟨rest, rfl, eq⟩ | ⟨rest, eq, feed⟩ := List.append_eq_append_iff.mp split
    · rw [Display.run_append, h.run]
      exact h'.rests rest back eq _
    · cases rest with
      | nil =>
        rw [List.append_nil] at eq
        subst eq
        rw [h.run]
        exact h'.rests [] back feed.symm _
      | cons c rest =>
        cases feed
        exact h.rests front rest eq shown
  stripped rest := by
    rw [List.append_assoc, h.stripped, h'.stripped, List.map_append, List.append_assoc]

/-- Text that brings no sequences, in which a line feed stands only if nothing is selected. -/
theorem text {r : Rendition} {cs : List Char} (free : '\x1b' ∉ cs) (rest : '\n' ∈ cs → r = .plain) :
    Shows r cs (cs.map (·, r)) r := by
  induction cs with
  | nil => exact .nil r
  | cons c cs ih =>
    simp only [List.mem_cons, not_or] at free rest
    have own : Shows r [c] [(c, r)] r := .char (Ne.symm free.1) fun feed => rest (.inl feed.symm)
    exact own.append (ih free.2 fun feed => rest (.inr feed))

theorem sequences (r : Rendition) (code : Attribute → Nat) (attributes : List Attribute) :
    Shows r (attributes.flatMap fun a => Ansi.sequence (code a)) []
      (attributes.foldl (fun r a => r.select (code a)) r) := by
  induction attributes generalizing r with
  | nil => exact .nil r
  | cons a attributes ih => exact (Shows.sequence r (code a)).append (ih _)

theorem flatMap {α : Type} {r : Rendition} {xs : List α} {f : α → List Char} {g : α → List Glyph}
    (h : ∀ x ∈ xs, Shows r (f x) (g x) r) : Shows r (xs.flatMap f) (xs.flatMap g) r := by
  induction xs with
  | nil => exact .nil r
  | cons x xs ih =>
    obtain ⟨own, later⟩ := List.forall_mem_cons.mp h
    exact own.append (ih later)

end Shows
end Excerpt
