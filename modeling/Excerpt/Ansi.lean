import Excerpt.Style
import Excerpt.Text.Strip

/-! Escape sequences of color terminals. Every attribute has a sequence that
switches it on and one that switches it off; bold and dim share the latter. -/
namespace Excerpt.Ansi

/-- The sequence that selects a graphic rendition. -/
def sequence (code : Nat) : List Char := '\x1b' :: '[' :: Nat.toDigits 10 code ++ ['m']

def colorCode : Color → Nat
  | .black => 30
  | .red => 31
  | .green => 32
  | .yellow => 33
  | .blue => 34
  | .magenta => 35
  | .cyan => 36
  | .white => 37

def openCode : Attribute → Nat
  | .foreground color => colorCode color
  | .bold => 1
  | .dim => 2
  | .italic => 3
  | .underline => 4

def closeCode : Attribute → Nat
  | .foreground _ => 39
  | .bold => 22
  | .dim => 22
  | .italic => 23
  | .underline => 24

/-- Switches attributes on in their order. -/
def openAll (attributes : List Attribute) : List Char :=
  attributes.flatMap fun a => sequence (openCode a)

/-- Switches attributes off in the opposite order. -/
def closeAll (attributes : List Attribute) : List Char :=
  attributes.reverse.flatMap fun a => sequence (closeCode a)

/-- Puts a text behind every occurrence of a mark, searching from left to right. -/
def insertAfter (mark added : List Char) : List Char → List Char
  | [] => []
  | c :: cs =>
    if mark.isPrefixOf (c :: cs) then
      mark ++ added ++ insertAfter mark added (cs.drop (mark.length - 1))
    else c :: insertAfter mark added cs
  termination_by cs => cs.length
  decreasing_by all_goals simp; try omega

/-- Text that brings sequences of its own: an attribute they switch off is
switched on again. -/
def reopen (attributes : List Attribute) (cs : List Char) : List Char :=
  attributes.foldr
    (fun a cs => insertAfter (sequence (closeCode a)) (sequence (openCode a)) cs) cs

/-- Attributes are switched off before every line end and on again after it. -/
def breakAtLineEnds (closing opening : List Char) : List Char → List Char
  | [] => []
  | '\r' :: '\n' :: cs =>
    closing ++ '\r' :: '\n' :: opening ++ breakAtLineEnds closing opening cs
  | '\n' :: cs => closing ++ '\n' :: opening ++ breakAtLineEnds closing opening cs
  | c :: cs => c :: breakAtLineEnds closing opening cs

/-- Characters with attributes. If there are none they take none. -/
def paintChars (attributes : List Attribute) (cs : List Char) : List Char :=
  if cs = [] ∨ attributes = [] then cs
  else
    let opening := openAll attributes
    let closing := closeAll attributes
    let cs := if '\x1b' ∈ cs then reopen attributes cs else cs
    opening ++ breakAtLineEnds closing opening cs ++ closing

/-- A text with attributes. One on a single line that brings no sequences stays
in one piece. -/
def paint (attributes : List Attribute) (text : Strip) : Strip :=
  if text.isEmpty || attributes.isEmpty then text
  else if text.contains '\x1b' || text.contains '\n' then
    .ofChars (paintChars attributes text.chars)
  else .ofChars (openAll attributes) ++ (text ++ .ofChars (closeAll attributes))

theorem breakAtLineEnds_eq_self (closing opening : List Char) {cs : List Char} (h : '\n' ∉ cs) :
    breakAtLineEnds closing opening cs = cs := by
  fun_induction breakAtLineEnds closing opening cs with
  | case1 => rfl
  | case2 => simp at h
  | case3 => simp at h
  | case4 c cs _ _ ih => rw [ih fun inside => h (List.mem_cons_of_mem c inside)]

theorem chars_paint (attributes : List Attribute) (text : Strip) :
    (paint attributes text).chars = paintChars attributes text.chars := by
  rw [paint]
  by_cases bare : text.chars = [] ∨ attributes = []
  · have : (text.isEmpty || attributes.isEmpty) = true := by simpa [Strip.isEmpty_iff] using bare
    rw [if_pos this, paintChars, if_pos bare]
  · have : ¬(text.isEmpty || attributes.isEmpty) = true := by simpa [Strip.isEmpty_iff] using bare
    rw [if_neg this]
    split
    · exact Strip.chars_ofChars _
    · rename_i single
      simp only [Bool.or_eq_true, Strip.contains_iff, not_or] at single
      rw [paintChars, if_neg bare]
      simp [single.1, breakAtLineEnds_eq_self _ _ single.2]

end Excerpt.Ansi
