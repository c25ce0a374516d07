import Excerpt.Text.Extent

/-! Message templates. A placeholder is a word in braces; filling a template
replaces the placeholders that have an argument, all at once. How long a filled
template is can be told without filling it. -/
namespace Excerpt

namespace Template

/-- What may be put in place of a placeholder. -/
inductive Argument where
  | text (value : String)
  | number (value : Number)
  deriving DecidableEq, Repr

def Argument.toText : Argument → String
  | .text value => value
  | .number value => value.toText

/-- Letters, digits and the underscore of ASCII. -/
def isWord (c : Char) : Bool := c.isAlphanum || c == '_'

inductive Piece where
  | literal (c : Char)
  | placeholder (key : List Char)
  deriving DecidableEq, Repr

/-- The word of a placeholder whose opening brace has just been read, and what
follows its closing brace. -/
def placeholder? (cs : List Char) : Option (List Char × List Char) :=
  match cs.takeWhile isWord, cs.dropWhile isWord with
  | c :: key, '\x7d' :: rest => some (c :: key, rest)
  | _, _ => none

theorem placeholder?_length {cs key rest : List Char} (h : placeholder? cs = some (key, rest)) :
    rest.length < cs.length := by
  unfold placeholder? at h
  split at h
  · rename_i c key' rest' hk hr
    simp only [Option.some.injEq, Prod.mk.injEq] at h
    have hsplit := congrArg List.length (List.takeWhile_append_dropWhile (p := isWord) (l := cs))
    rw [hk, hr] at hsplit
    simp [h.2] at hsplit
    omega
  · simp at h

/-- A template from left to right; a brace that opens no placeholder is a literal. -/
def pieces : List Char → List Piece
  | [] => []
  | c :: cs =>
    if c = '\x7b' then
      match h : placeholder? cs with
      | some (key, rest) =>
        have := placeholder?_length h
        .placeholder key :: pieces rest
      | none => .literal c :: pieces cs
    else .literal c :: pieces cs
  termination_by cs => cs.length

/-- The text a piece becomes; a placeholder without an argument stays as it is. -/
def Piece.fill (arguments : List (String × Argument)) : Piece → List Char
  | .literal c => [c]
  | .placeholder key =>
    match arguments.lookup (String.ofList key) with
    | some argument => argument.toText.toList
    | none => '\x7b' :: key ++ ['\x7d']

/-- The UTF-16 units of what a piece becomes, given those of the arguments. -/
def Piece.units (arguments : List (String × Nat)) : Piece → Nat
  | .literal c => Text.charUnits c
  | .placeholder key =>
    (arguments.lookup (String.ofList key)).getD (Text.units16 (String.ofList key) + 2)

def unitsOfArguments (arguments : List (String × Argument)) : List (String × Nat) :=
  arguments.map fun (key, argument) => (key, Text.units16 argument.toText)

theorem lookup_unitsOfArguments (key : String) (arguments : List (String × Argument)) :
    (unitsOfArguments arguments).lookup key =
      (arguments.lookup key).map fun argument => Text.units16 argument.toText := by
  induction arguments with
  | nil => rfl
  | cons entry arguments ih =>
    obtain ⟨name, argument⟩ := entry
    simp only [unitsOfArguments, List.map_cons, List.lookup_cons] at ih ⊢
    split
    · rfl
    · exact ih

theorem Piece.units_eq (arguments : List (String × Argument)) (piece : Piece) :
    piece.units (unitsOfArguments arguments) = Text.unitsOf (piece.fill arguments) := by
  cases piece with
  | literal c => simp [units, fill, Text.unitsOf]
  | placeholder key =>
    simp only [units, fill, lookup_unitsOfArguments]
    cases arguments.lookup (String.ofList key) with
    | some argument => rfl
    | none =>
      have brace : Text.unitsOf ('\x7b' :: key ++ ['\x7d']) = Text.unitsOf key + 2 := by
        rw [List.cons_append, ← List.singleton_append, Text.unitsOf_append, Text.unitsOf_append,
          Nat.add_comm]
        rfl
      simpa [Text.units16] using brace.symm

end Template

def fillTemplate (template : String) (arguments : List (String × Template.Argument)) : String :=
  String.ofList ((Template.pieces template.toList).flatMap (Template.Piece.fill arguments))

/-- The filled template, if there is a text that long. -/
def fillTemplate? (template : String) (arguments : List (String × Template.Argument)) :
    Except TextFault String :=
  let units := Template.unitsOfArguments arguments
  let filled := (Template.pieces template.toList).foldr (fun piece n => piece.units units + n) 0
  if filled ≤ Text.longest then .ok (fillTemplate template arguments) else .error .tooLong

theorem fillTemplate?_eq (template : String) (arguments : List (String × Template.Argument)) :
    fillTemplate? template arguments =
      if Text.units16 (fillTemplate template arguments) ≤ Text.longest then
        .ok (fillTemplate template arguments)
      else .error .tooLong := by
  have (pieces : List Template.Piece) :
      pieces.foldr (fun piece n => piece.units (Template.unitsOfArguments arguments) + n) 0 =
        Text.unitsOf (pieces.flatMap (Template.Piece.fill arguments)) := by
    induction pieces with
    | nil => rfl
    | cons piece pieces ih =>
      rw [List.foldr_cons, ih, Template.Piece.units_eq, List.flatMap_cons, Text.unitsOf_append]
  simp only [fillTemplate?, this, Text.units16, fillTemplate, String.toList_ofList]

end Excerpt
