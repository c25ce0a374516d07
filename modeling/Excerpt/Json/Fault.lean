import Excerpt.Decimal.Text
import Excerpt.Text.Utf16

/-! Why a text is not JSON. -/
namespace Excerpt.Json

/-- What stopped a reader. The rest of the text from there on tells where it was. -/
inductive Fault where
  /-- Nothing that may stand here starts like the rest, or the text is over. -/
  | unexpected (rest : List Char)
  /-- A minus has no digit behind it. -/
  | noDigits (rest : List Char)
  deriving DecidableEq, Repr

namespace Fault

def rest : Fault → List Char
  | unexpected rest => rest
  | noDigits rest => rest

/-- How many units stand in front of the fault. -/
def position (source : List Char) (fault : Fault) : Nat :=
  (Utf16.encode source).length - (Utf16.encode fault.rest).length

/-- How many units are shown on each side of an unexpected character. -/
def contextUnits : Nat := 10

/-- The part of a text around a unit, in quotes; dots stand for what is left out.
Texts that fit into the context are shown whole. -/
def context (source : List Char) (position : Nat) : String :=
  let units := Utf16.encode source
  let quoted (units : Utf16.Units) := "\"" ++ String.ofList (Utf16.decode units) ++ "\""
  let fromHere := units.drop (position - contextUnits)
  if units.length ≤ 2 * contextUnits then quoted units
  else if position < contextUnits then quoted (units.take (position + contextUnits)) ++ "..."
  else if position + contextUnits < units.length then
    "..." ++ quoted (fromHere.take (2 * contextUnits)) ++ "..."
  else "..." ++ quoted fromHere

/-- The line and the column after some characters, both from 1 on. A return and a
line feed in a row end one line. -/
def lineAndColumn : Nat → Nat → List Char → Nat × Nat
  | line, column, [] => (line, column)
  | line, column, '\r' :: '\n' :: cs => lineAndColumn line (column + 1) ('\n' :: cs)
  | line, column, c :: cs =>
    if c = '\n' ∨ c = '\r' then lineAndColumn (line + 1) 1 cs
    else lineAndColumn line (column + Text.charUnits c) cs

/-- What an engine may say about the fault. Inputs are refused without these words; they are for
tools around the program that read lines of JSON. -/
def message (source : String) (fault : Fault) : String :=
  let position := fault.position source.toList
  match fault with
  | unexpected [] => "Unexpected end of JSON input"
  | unexpected (c :: _) =>
    "Unexpected token '" ++ c.toString ++ "', " ++ context source.toList position ++
      " is not valid JSON"
  | noDigits rest =>
    let before := source.toList.take (source.length - rest.length)
    let (line, column) := lineAndColumn 1 1 before
    "No number after minus sign in JSON at position " ++ Decimal.digits position ++
      " (line " ++ Decimal.digits line ++ " column " ++ Decimal.digits column ++ ")"

end Fault
end Excerpt.Json
