import Excerpt.Text.Template
import Mathlib.Data.List.Infix

/-! How a template is read. Its placeholders are the words in braces from left to right, and
every other character stands for itself; there is one such reading. It can be cut into
readings of parts wherever no placeholder is cut. -/
namespace Excerpt.Template

/-- Letters, digits and underscores, at least one of them. -/
def IsWord (key : List Char) : Prop := key ≠ [] ∧ ∀ c ∈ key, isWord c = true

instance (key : List Char) : Decidable (IsWord key) :=
  decidable_of_iff (key ≠ [] ∧ key.all isWord = true) (Iff.rfl.and List.all_eq_true)

/-- What a piece is written as. -/
def Piece.source : Piece → List Char
  | .literal c => [c]
  | .placeholder key => '\x7b' :: (key ++ ['\x7d'])

/-- What pieces are written as. -/
def written (pieces : List Piece) : List Char := pieces.flatMap Piece.source

/-- A text starts with a placeholder. -/
def Opens (key cs : List Char) : Prop :=
  IsWord key ∧ (Piece.placeholder key).source <+: cs

/-- A reading of a text: the pieces are written as the text, each placeholder is a word in
braces, and no character is read for itself where a placeholder starts. -/
structure ReadAs (text : List Char) (pieces : List Piece) : Prop where
  whole : written pieces = text
  words : ∀ key, .placeholder key ∈ pieces → IsWord key
  leftmost : ∀ before c after, pieces = before ++ .literal c :: after →
    ∀ key, ¬Opens key (c :: written after)

/-! ## Reading placeholders -/

theorem IsWord.brace_not_mem {key : List Char} (h : IsWord key) :
    '\x7b' ∉ key ∧ '\x7d' ∉ key := by
  constructor <;> exact fun brace => absurd (h.2 _ brace) (by decide)

theorem takeWhile_word {key : List Char} (h : IsWord key) (rest : List Char) :
    (key ++ '\x7d' :: rest).takeWhile isWord = key ∧
      (key ++ '\x7d' :: rest).dropWhile isWord = '\x7d' :: rest := by
  have stop : isWord '\x7d' = false := by decide
  constructor
  · rw [List.takeWhile_append_of_pos h.2, List.takeWhile_cons_of_neg (by simp [stop]),
      List.append_nil]
  · rw [List.dropWhile_append_of_pos h.2, List.dropWhile_cons_of_neg (by simp [stop])]

theorem placeholder?_eq_some_iff {cs key rest : List Char} :
    placeholder? cs = some (key, rest) ↔ IsWord key ∧ cs = key ++ '\x7d' :: rest := by
  constructor
  · intro h
    unfold placeholder? at h
    split at h
    · rename_i c word rest' taken dropped
      cases h
      refine ⟨⟨List.cons_ne_nil _ _, ?_⟩, ?_⟩
      · rw [← taken]
        exact List.all_eq_true.mp List.all_takeWhile
      · rw [← taken, ← dropped, List.takeWhile_append_dropWhile]
    · cases h
  · rintro ⟨word, rfl⟩
    obtain ⟨taken, dropped⟩ := takeWhile_word word rest
    obtain ⟨c, key, rfl⟩ := List.exists_cons_of_ne_nil word.1
    rw [placeholder?, taken, dropped]
    rfl

theorem opens_iff {key cs : List Char} :
    Opens key ('\x7b' :: cs) ↔ ∃ rest, placeholder? cs = some (key, rest) := by
  constructor
  · rintro ⟨word, rest, eq⟩
    refine ⟨rest, placeholder?_eq_some_iff.mpr ⟨word, ?_⟩⟩
    rw [Piece.source, List.cons_append, List.append_assoc, List.cons.injEq] at eq
    exact eq.2.symm
  · rintro ⟨rest, found⟩
    obtain ⟨word, rfl⟩ := placeholder?_eq_some_iff.mp found
    exact ⟨word, rest, by simp [Piece.source]⟩

theorem Opens.brace {key cs : List Char} {c : Char} (h : Opens key (c :: cs)) : c = '\x7b' := by
  obtain ⟨_, rest, eq⟩ := h
  exact (List.cons.inj eq).1.symm

theorem pieces_literal {c : Char} {cs : List Char} (h : ∀ key, ¬Opens key (c :: cs)) :
    pieces (c :: cs) = .literal c :: pieces cs := by
  rw [pieces]
  split
  · rename_i brace
    subst brace
    split
    · rename_i key rest found
      exact absurd (opens_iff.mpr ⟨rest, found⟩) (h key)
    · rfl
  · rfl

theorem pieces_placeholder {key : List Char} (h : IsWord key) (rest : List Char) :
    pieces ((Piece.placeholder key).source ++ rest) = .placeholder key :: pieces rest := by
  have found : placeholder? (key ++ '\x7d' :: rest) = some (key, rest) :=
    placeholder?_eq_some_iff.mpr ⟨h, rfl⟩
  rw [Piece.source, List.cons_append, List.append_assoc, List.singleton_append, pieces,
    if_pos rfl]
  split
  · rename_i key' rest' found'
    rw [found] at found'
    cases found'
    rfl
  · rename_i missing
    rw [found] at missing
    cases missing

/-! ## The reading -/

theorem written_cons (piece : Piece) (pieces : List Piece) :
    written (piece :: pieces) = piece.source ++ written pieces := List.flatMap_cons

theorem written_append (front back : List Piece) :
    written (front ++ back) = written front ++ written back := List.flatMap_append

namespace ReadAs

variable {text : List Char} {before after : List Piece}

/-- The last pieces of a reading are a reading of what they are written as. -/
theorem back (h : ReadAs text (before ++ after)) : ReadAs (written after) after where
  whole := rfl
  words key own := h.words key (List.mem_append_right _ own)
  leftmost first c last split := by
    refine h.leftmost (before ++ first) c last ?_
    rw [split, List.append_assoc]

/-- And so are the first ones: a placeholder in a part is one in the whole text. -/
theorem front (h : ReadAs text (before ++ after)) : ReadAs (written before) before where
  whole := rfl
  words key own := h.words key (List.mem_append_left _ own)
  leftmost first c last split key opens := by
    refine h.leftmost first c (last ++ after) ?_ key ⟨opens.1, opens.2.trans ?_⟩
    · rw [split, List.append_assoc, List.cons_append]
    · rw [written_append, ← List.cons_append]
      exact List.prefix_append _ _

theorem literal {c : Char} {pieces : List Piece} (h : ReadAs text pieces)
    (closed : ∀ key, ¬Opens key (c :: text)) : ReadAs (c :: text) (.literal c :: pieces) where
  whole := by
    rw [written_cons, h.whole]
    rfl
  words key own := h.words key (by simpa using own)
  leftmost before d after split := by
    cases before with
    | nil =>
      cases split
      rw [h.whole]
      exact closed
    | cons first before => exact h.leftmost before d after (List.cons.inj split).2

theorem placeholder {key : List Char} {pieces : List Piece} (h : ReadAs text pieces)
    (word : IsWord key) :
    ReadAs ((Piece.placeholder key).source ++ text) (.placeholder key :: pieces) where
  whole := by rw [written_cons, h.whole]
  words other own := by
    rcases List.mem_cons.mp own with first | later
    · exact Piece.placeholder.inj first ▸ word
    · exact h.words other later
  leftmost before c after split := by
    cases before with
    | nil => cases split
    | cons first before => exact h.leftmost before c after (List.cons.inj split).2

end ReadAs

theorem readAs_pieces (text : List Char) : ReadAs text (pieces text) := by
  fun_induction pieces text with
  | case1 => exact ⟨rfl, by simp, by simp⟩
  | case2 cs key rest found shorter ih =>
    obtain ⟨word, rfl⟩ := placeholder?_eq_some_iff.mp found
    have own : '\x7b' :: (key ++ '\x7d' :: rest) = (Piece.placeholder key).source ++ rest := by
      simp [Piece.source]
    rw [own]
    exact ih.placeholder word
  | case3 cs missing ih =>
    refine ih.literal fun key opens => ?_
    obtain ⟨rest, found⟩ := opens_iff.mp opens
    rw [missing] at found
    cases found
  | case4 c cs other ih => exact ih.literal fun key opens => other opens.brace

/-- There is no other reading. -/
theorem ReadAs.eq_pieces {text : List Char} {ps : List Piece} (h : ReadAs text ps) :
    pieces text = ps := by
  induction ps generalizing text with
  | nil =>
    obtain rfl : text = [] := h.whole.symm
    rw [pieces]
  | cons piece ps ih =>
    have behind : ReadAs text ([piece] ++ ps) := h
    have rest : pieces (written ps) = ps := ih behind.back
    rw [← h.whole, written_cons]
    cases piece with
    | literal c =>
      rw [Piece.source, List.singleton_append, pieces_literal (h.leftmost [] c ps rfl), rest]
    | placeholder key => rw [pieces_placeholder (h.words key List.mem_cons_self), rest]

theorem pieces_eq_iff {text : List Char} {ps : List Piece} :
    pieces text = ps ↔ ReadAs text ps :=
  ⟨fun eq => eq ▸ readAs_pieces text, ReadAs.eq_pieces⟩

/-! ## Cutting a template -/

/-- A cut between two parts of a text falls inside of a placeholder. -/
def Cuts (front back : List Char) : Prop :=
  ∃ before key after opening closing,
    pieces (front ++ back) = before ++ .placeholder key :: after ∧
    (Piece.placeholder key).source = opening ++ closing ∧ opening ≠ [] ∧ closing ≠ [] ∧
    front = written before ++ opening ∧ back = closing ++ written after

/-- Pieces can be parted where their text is cut, or the cut is inside of a placeholder. -/
theorem exists_parted {ps : List Piece} {front back : List Char}
    (h : written ps = front ++ back) :
    (∃ before after, ps = before ++ after ∧ front = written before ∧ back = written after) ∨
      ∃ before key after opening closing, ps = before ++ .placeholder key :: after ∧
        (Piece.placeholder key).source = opening ++ closing ∧ opening ≠ [] ∧ closing ≠ [] ∧
        front = written before ++ opening ∧ back = closing ++ written after := by
  induction ps generalizing front with
  | nil =>
    obtain ⟨rfl, rfl⟩ := List.append_eq_nil_iff.mp h.symm
    exact .inl ⟨[], [], rfl, rfl, rfl⟩
  | cons piece ps ih =>
    rw [written_cons] at h
    rcases List.append_eq_append_iff.mp h with ⟨rest, rfl, later⟩ | ⟨closing, own, rfl⟩
    · -- The cut is behind the first piece.
      rcases ih later with ⟨before, after, rfl, rfl, rfl⟩ |
        ⟨before, key, after, opening, closing, rfl, own, opened, closed, rfl, rfl⟩
      · exact .inl ⟨piece :: before, after, rfl, rfl, rfl⟩
      · refine .inr ⟨piece :: before, key, after, opening, closing, rfl, own, opened, closed,
          ?_, rfl⟩
        rw [written_cons, List.append_assoc]
    · by_cases opened : front = []
      · subst opened
        refine .inl ⟨[], piece :: ps, rfl, rfl, ?_⟩
        rw [written_cons, own, List.nil_append]
      · by_cases closed : closing = []
        · subst closed
          rw [List.append_nil] at own
          exact .inl ⟨[piece], ps, rfl, by rw [← own]; simp [written], rfl⟩
        · cases piece with
          | literal c =>
            have long := congrArg List.length own
            have := List.length_pos_of_ne_nil opened
            have := List.length_pos_of_ne_nil closed
            simp only [Piece.source, List.length_singleton, List.length_append] at long
            omega
          | placeholder key =>
            exact .inr ⟨[], key, ps, front, closing, rfl, own, opened, closed, rfl, rfl⟩

/-- Parts of a text are read apart where no placeholder is cut. -/
theorem pieces_append {front back : List Char} (h : ¬Cuts front back) :
    pieces (front ++ back) = pieces front ++ pieces back := by
  have read := readAs_pieces (front ++ back)
  rcases exists_parted read.whole with ⟨before, after, eq, rfl, rfl⟩ |
    ⟨before, key, after, opening, closing, inside⟩
  · rw [eq] at read
    rw [eq, read.front.eq_pieces, read.back.eq_pieces]
  · exact absurd ⟨before, key, after, opening, closing, inside⟩ h

/-- No placeholder has an opening brace behind its first character. -/
theorem not_cuts_of_brace (front rest : List Char) : ¬Cuts front ('\x7b' :: rest) := by
  rintro ⟨before, key, after, opening, closing, eq, own, opened, closed, -, behind⟩
  have word : IsWord key := (readAs_pieces _).words key (by rw [eq]; simp)
  obtain ⟨c, closing, rfl⟩ := List.exists_cons_of_ne_nil closed
  obtain ⟨d, opening, rfl⟩ := List.exists_cons_of_ne_nil opened
  obtain rfl : c = '\x7b' := (List.cons.inj behind).1.symm
  have inside : '\x7b' ∈ key ++ ['\x7d'] := by
    rw [(List.cons.inj own).2]
    simp
  rcases List.mem_append.mp inside with inside | last
  · exact word.brace_not_mem.1 inside
  · simp at last

/-- No cut between parts of a text falls inside of a placeholder of the text. -/
def Uncut (parts : List (List Char)) : Prop :=
  ∀ front back, parts = front ++ back → ¬Cuts front.flatten back.flatten

theorem Uncut.tail {part : List Char} {parts : List (List Char)} (h : Uncut (part :: parts)) :
    Uncut parts := by
  rintro front back rfl ⟨before, key, after, opening, closing, eq, own, opened, closed, ahead,
    behind⟩
  -- A placeholder that is cut among the later parts is one of the whole text.
  refine h (part :: front) back rfl ⟨pieces part ++ before, key, after, opening, closing, ?_, own,
    opened, closed, ?_, behind⟩
  · have first := pieces_append (h [part] (front ++ back) rfl)
    rw [List.flatten_singleton, List.flatten_append, eq] at first
    rw [List.flatten_cons, List.append_assoc, first, List.append_assoc]
  · rw [List.flatten_cons, ahead, written_append, (readAs_pieces part).whole, List.append_assoc]

theorem pieces_flatten {parts : List (List Char)} (h : Uncut parts) :
    pieces parts.flatten = parts.flatMap pieces := by
  induction parts with
  | nil => rw [List.flatten_nil, pieces, List.flatMap_nil]
  | cons part parts ih =>
    have first : ¬Cuts part parts.flatten := by simpa using h [part] parts rfl
    rw [List.flatten_cons, pieces_append first, ih h.tail, List.flatMap_cons]

end Excerpt.Template
