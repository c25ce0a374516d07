import Excerpt.Layout.Fault
import Excerpt.Resolution

/-! The lines that are shown: the first and the last line of every label, the
lines between them if they are few, and context around all of them. -/
namespace Excerpt

section

variable {α : Type} [Add α] [Sub α] [Max α] [Min α] [LT α] [DecidableLT α] [LE α] [DecidableLE α]
  [DecidableEq α] [OfNat α 1] [NatCast α] [Coordinate α]

/-- The lines from `line` on for which `more` holds. Their number is bounded by `fuel`, also where
rounding keeps the count from going on. -/
def linesWhile (more : α → Bool) (line : α) : (fuel : Nat) → List α
  | 0 => []
  | fuel + 1 => if more line then line :: linesWhile more (line + 1) fuel else []

/-- The lines from `line` up to but not including `stop`. As steps are rounded,
one line more may come before `stop` than its distance tells. -/
def linesBefore (stop line : α) : List α :=
  linesWhile (fun line => decide (line < stop)) line (Coordinate.toCount (stop - line) + 2)

/-- The lines from `line` up to and including `last`. -/
def linesTo (last line : α) : List α :=
  linesWhile (fun line => decide (line ≤ last)) line (Coordinate.toCount (last - line) + 2)

/-- The lines a label shows by itself. -/
def ResolvedLabel.shownLines (config : Config) (l : ResolvedLabel α) : List α :=
  [l.start.line, l.stop.line] ++
    if l.stop.line - l.start.line - 1 ≤ (config.elisionThreshold : α) then
      linesBefore l.stop.line (l.start.line + 1)
    else []

/-- The lines before and after some lines, inside of a file of `lineCount` lines. -/
def contextLines (config : Config) (lineCount : α) (lines : List α) : List α :=
  match lines.min?, lines.max? with
  | some first, some last =>
    linesBefore first (max 1 (first - (config.linesBefore : α))) ++
      linesTo (min lineCount (last + (config.linesAfter : α))) (last + 1)
  | _, _ => []

/-- Drops repetitions from sorted lines. -/
def dropRepeated : List α → List α
  | [] => []
  | line :: lines =>
    match dropRepeated lines with
    | next :: rest => if line = next then next :: rest else line :: next :: rest
    | [] => [line]

/-- Some lines in order and each once. -/
def eachOnce (lines : List α) : List α :=
  dropRepeated (lines.mergeSort fun a b => decide (a ≤ b))

/-- The lines shown for some labels of a file, in order and each once. -/
def shownLines (config : Config) (lineCount : α) (labels : List (ResolvedLabel α)) : List α :=
  let lines := labels.flatMap (ResolvedLabel.shownLines config)
  eachOnce (lines ++ contextLines config lineCount lines)

/-- The most lines that may be shown at all. -/
def mostShown : Nat := 16777216

/-- How many lines there are from the first to the last one a label shows by
itself, as far as it shows the lines between them. -/
def ResolvedLabel.shownCount (config : Config) (l : ResolvedLabel α) : Nat :=
  if l.stop.line - l.start.line - 1 ≤ (config.elisionThreshold : α) then
    Coordinate.toCount (l.stop.line - l.start.line) + 1
  else 1

/-- How many lines of context there are. -/
def contextCount (config : Config) (lineCount : α) (lines : List α) : Nat :=
  match lines.min?, lines.max? with
  | some first, some last =>
    Coordinate.toCount (first - max 1 (first - (config.linesBefore : α))) +
      Coordinate.toCount (min lineCount (last + (config.linesAfter : α)) - last)
  | _, _ => 0

/-- Why the lines of some labels cannot be shown. They are held before they are compared, and the
lines around them are held after that. Labels with far too many lines are told by their ends where
that is enough, so that their lines are not listed. -/
def shownFault? (config : Config) (lineCount : α) (labels : List (ResolvedLabel α)) :
    Option LayoutFault :=
  let counts := labels.map (ResolvedLabel.shownCount config)
  if counts.any fun count => mostShown < count then some .tooManyShown
  else if counts.foldl (fun listed count => listed + count + 1) 0 ≤ mostShown &&
      counts.any fun count => mostAtOnce < count then
    some .tooManyAtOnce
  else
    let lines := labels.flatMap (ResolvedLabel.shownLines config)
    let labelled := (eachOnce lines).length
    if mostShown < labelled then some .tooManyShown
    else if mostAtOnce < labelled then some .tooManyAtOnce
    else if mostShown < labelled + contextCount config lineCount lines then some .tooManyShown
    else none

/-- The lines shown for some labels, if there are not too many. -/
def shownLines? (config : Config) (lineCount : α) (labels : List (ResolvedLabel α)) :
    Except LayoutFault (List α) :=
  match shownFault? config lineCount labels with
  | some fault => .error fault
  | none => .ok (shownLines config lineCount labels)

end

theorem linesWhile_nat {more : Nat → Bool} {line stop : Nat}
    (h : ∀ n, line ≤ n → (more n = true ↔ n < stop)) (fuel : Nat) (hf : stop - line ≤ fuel) :
    linesWhile more line fuel = List.range' line (stop - line) := by
  induction fuel generalizing line with
  | zero => rw [show stop - line = 0 by omega, List.range'_zero]; rfl
  | succ fuel ih =>
    by_cases hl : line < stop
    · rw [linesWhile, if_pos ((h line (Nat.le_refl line)).mpr hl),
        ih (fun n hn => h n (by omega)) (by omega),
        show stop - line = stop - (line + 1) + 1 by omega, List.range'_succ]
    · have hm : ¬ more line = true := fun hm => hl ((h line (Nat.le_refl line)).mp hm)
      rw [linesWhile, if_neg hm, show stop - line = 0 by omega, List.range'_zero]

theorem linesBefore_nat (stop line : Nat) :
    linesBefore stop line = List.range' line (stop - line) :=
  linesWhile_nat (fun _ _ => decide_eq_true_iff) _ (Nat.le_add_right _ 2)

theorem linesTo_nat (last line : Nat) :
    linesTo last line = List.range' line (last + 1 - line) :=
  linesWhile_nat (fun _ _ => decide_eq_true_iff.trans Nat.lt_succ_iff.symm) _
    (by rw [Coordinate.toCount_nat]; omega)

end Excerpt
