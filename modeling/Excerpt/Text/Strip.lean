import Excerpt.Text.Stretch
import Excerpt.Text.Units

/-! Strips: text whose repeated characters are counted and not spelled out, so
that a row with a very wide tab can be measured, and refused, before it is
written. Strips with the same characters are equal. -/
namespace Excerpt

structure Strip where
  stretches : List Stretch
  joined : Stretch.Joined stretches
  deriving DecidableEq, Repr

namespace Strip

/-- What a strip spells. -/
def chars (s : Strip) : List Char := s.stretches.flatMap Stretch.chars

theorem ext_chars {a b : Strip} (h : a.chars = b.chars) : a = b := by
  obtain ⟨a, ha⟩ := a
  obtain ⟨b, hb⟩ := b
  have : a = b := Stretch.eq_of_flatMap_eq ha hb h
  subst this
  rfl

def empty : Strip := ⟨[], trivial⟩

instance : Inhabited Strip := ⟨empty⟩

/-- Puts a repeated character in front. -/
def push (c : Char) (count : Nat) (s : Strip) : Strip :=
  ⟨Stretch.pushFront c count s.stretches, Stretch.joined_pushFront s.joined⟩

def ofChars (cs : List Char) : Strip := cs.foldr (fun c s => s.push c 1) empty

def ofString (text : String) : Strip := ofChars text.toList

instance : Coe String Strip := ⟨ofString⟩

def repeated (count : Nat) (c : Char) : Strip := empty.push c count

def append (a b : Strip) : Strip := a.stretches.foldr (fun t s => s.push t.char t.count) b

instance : Append Strip := ⟨append⟩

def isEmpty (s : Strip) : Bool := s.stretches.isEmpty

/-- Code points. -/
def length (s : Strip) : Nat := s.stretches.foldr (fun t n => t.count + n) 0

/-- UTF-16 units. -/
def units (s : Strip) : Nat := s.stretches.foldr (fun t n => t.count * Text.charUnits t.char + n) 0

def contains (s : Strip) (c : Char) : Bool := s.stretches.any fun t => t.char == c

/-- Whether there is a text that long. -/
def fits (s : Strip) : Bool := s.units ≤ Text.longest

/-- A strip without the spaces it ends in. -/
def trimSpaces (s : Strip) : Strip :=
  s.stretches.foldr
    (fun t kept => if kept.isEmpty && t.char == ' ' then kept else kept.push t.char t.count) empty

/-- Puts characters in place of each character. -/
def spell (f : Char → List Char) (s : Strip) : Strip :=
  s.stretches.foldr
    (fun t spelled =>
      match f t.char with
      | [c] => spelled.push c t.count
      | cs => ofChars (List.replicate t.count cs).flatten ++ spelled)
    empty

/-- Strips one after the other. -/
def join (strips : List Strip) : Strip := strips.foldr append empty

def toText (s : Strip) : String :=
  s.stretches.foldl (fun text t => text.pushn t.char t.count) ""

@[simp] theorem chars_empty : empty.chars = [] := rfl

@[simp] theorem units_empty : empty.units = 0 := rfl

@[simp] theorem chars_push (c : Char) (count : Nat) (s : Strip) :
    (s.push c count).chars = List.replicate count c ++ s.chars :=
  Stretch.flatMap_pushFront c count s.stretches

@[simp] theorem chars_ofChars (cs : List Char) : (ofChars cs).chars = cs := by
  induction cs with
  | nil => rfl
  | cons c cs ih =>
    rw [ofChars, List.foldr_cons, chars_push]
    exact congrArg (c :: ·) ih

@[simp] theorem chars_ofString (text : String) : (ofString text).chars = text.toList :=
  chars_ofChars _

@[simp] theorem chars_repeated (count : Nat) (c : Char) :
    (repeated count c).chars = List.replicate count c := by
  simp [repeated]

@[simp] theorem chars_append (a b : Strip) : (a ++ b).chars = a.chars ++ b.chars := by
  have (stretches : List Stretch) :
      (stretches.foldr (fun t s => s.push t.char t.count) b).chars =
        stretches.flatMap Stretch.chars ++ b.chars := by
    induction stretches with
    | nil => rfl
    | cons t rest ih =>
      rw [List.foldr_cons, chars_push, ih, List.flatMap_cons, List.append_assoc]
      rfl
  exact this a.stretches

theorem isEmpty_iff (s : Strip) : s.isEmpty = true ↔ s.chars = [] := by
  rw [isEmpty, List.isEmpty_iff, chars]
  constructor
  · intro h; rw [h]; rfl
  · intro h
    exact Stretch.eq_of_flatMap_eq s.joined trivial (by simpa using h)

theorem contains_iff (s : Strip) (c : Char) : s.contains c = true ↔ c ∈ s.chars := by
  have (stretches : List Stretch) (h : Stretch.Joined stretches) :
      stretches.any (fun t => t.char == c) = true ↔ c ∈ stretches.flatMap Stretch.chars := by
    induction stretches with
    | nil => simp
    | cons t rest ih =>
      have positive : t.count ≠ 0 := Nat.ne_of_gt h.1
      rw [List.any_cons, Bool.or_eq_true, ih h.2.2, beq_iff_eq]
      simp [Stretch.chars, positive, eq_comm]
  exact this s.stretches s.joined

@[simp] theorem chars_spell (f : Char → List Char) (s : Strip) :
    (s.spell f).chars = s.chars.flatMap f := by
  rw [spell, chars.eq_def s]
  induction s.stretches with
  | nil => rfl
  | cons t rest ih =>
    rw [List.foldr_cons, List.flatMap_cons, List.flatMap_append, ← ih, Stretch.chars,
      List.flatMap_replicate]
    split
    · rename_i c hc
      simp [hc]
    · simp

@[simp] theorem chars_trimSpaces (s : Strip) :
    s.trimSpaces.chars = (s.chars.reverse.dropWhile (· == ' ')).reverse := by
  rw [trimSpaces, chars.eq_def s]
  induction s.stretches with
  | nil => rfl
  | cons t rest ih =>
    rw [List.foldr_cons, List.flatMap_cons, List.reverse_append, List.dropWhile_append]
    generalize rest.foldr _ empty = kept at ih ⊢
    have none_left : kept.isEmpty = ((rest.flatMap Stretch.chars).reverse.dropWhile
        (· == ' ')).isEmpty := by
      rw [Bool.eq_iff_iff, isEmpty_iff, ih, List.isEmpty_iff, List.reverse_eq_nil_iff]
    rw [← none_left]
    by_cases h : kept.isEmpty
    · have gone := (isEmpty_iff kept).1 h
      by_cases space : t.char = ' '
      · simp [h, gone, space, Stretch.chars]
      · simp [h, gone, space, Stretch.chars]
    · simp [h, ih, Stretch.chars]

@[simp] theorem chars_join (strips : List Strip) :
    (join strips).chars = strips.flatMap chars := by
  induction strips with
  | nil => rfl
  | cons s rest ih => exact (chars_append s (join rest)).trans (congrArg (s.chars ++ ·) ih)

theorem push_append (c : Char) (count : Nat) (a b : Strip) :
    a.push c count ++ b = (a ++ b).push c count :=
  ext_chars (by simp)

@[simp] theorem empty_append (s : Strip) : empty ++ s = s := ext_chars (by simp)

theorem append_assoc (a b c : Strip) : a ++ b ++ c = a ++ (b ++ c) := ext_chars (by simp)

theorem length_eq (s : Strip) : s.length = s.chars.length := by
  rw [length, chars]
  induction s.stretches with
  | nil => rfl
  | cons t rest ih => simp [ih, Stretch.chars]

theorem units_eq (s : Strip) : s.units = Text.unitsOf s.chars := by
  rw [units, chars]
  induction s.stretches with
  | nil => rfl
  | cons t rest ih => simp [ih, Stretch.chars]

@[simp] theorem units_push (c : Char) (count : Nat) (s : Strip) :
    (s.push c count).units = count * Text.charUnits c + s.units := by
  simp [units_eq]

@[simp] theorem units_append (a b : Strip) : (a ++ b).units = a.units + b.units := by
  simp [units_eq]

@[simp] theorem toList_toText (s : Strip) : s.toText.toList = s.chars := by
  have pushed (text : String) (c : Char) (count : Nat) :
      (text.pushn c count).toList = text.toList ++ List.replicate count c := by
    induction count with
    | zero => simp [String.pushn, Nat.repeat]
    | succ n ih =>
      simp only [String.pushn, Nat.repeat] at ih ⊢
      rw [String.toList_push, ih, List.replicate_succ', List.append_assoc]
  have (stretches : List Stretch) (text : String) :
      (stretches.foldl (fun text t => text.pushn t.char t.count) text).toList =
        text.toList ++ stretches.flatMap Stretch.chars := by
    induction stretches generalizing text with
    | nil => simp
    | cons t rest ih => rw [List.foldl_cons, ih, pushed]; simp [Stretch.chars]
  rw [toText, this]
  rfl

end Strip
end Excerpt
