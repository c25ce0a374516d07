import Excerpt.Source
import Excerpt.Text.Utf16
import Excerpt.Text.Utf8

/-! A source file: its lines, and what its bytes are. -/
namespace Excerpt

/-- A name and a text as they are handed in. -/
structure SourceFile where
  nameUnits : Utf16.Units
  units : Utf16.Units
  deriving DecidableEq, Repr

namespace SourceFile

def ofText (name text : String) : SourceFile :=
  ⟨Utf16.encode name.toList, Utf16.encode text.toList⟩

def name (file : SourceFile) : String := String.ofList (Utf16.decode file.nameUnits)

/-- The characters of the text, which are what its bytes encode. -/
def source (file : SourceFile) : String := String.ofList (Utf16.decode file.units)

@[simp] theorem name_ofText (name text : String) : (ofText name text).name = name := by
  rw [SourceFile.name, ofText, Utf16.decode_encode, String.ofList_toList]

@[simp] theorem source_ofText (name text : String) : (ofText name text).source = text := by
  rw [source, ofText, Utf16.decode_encode, String.ofList_toList]

/-- How many bytes some characters take up. -/
def byteLength : List Char → Nat
  | [] => 0
  | c :: cs => c.utf8Size + byteLength cs

@[simp] theorem byteLength_append (a b : List Char) :
    byteLength (a ++ b) = byteLength a + byteLength b := by
  induction a with
  | nil => simp [byteLength]
  | cons c cs ih => simp [byteLength, ih, Nat.add_assoc]

/-- The lines of a file without their line feeds; the last one may be empty. -/
def lines (file : SourceFile) : List (List Char) := file.source.toList.splitOn '\n'

/-- A final line feed ends the last line and starts no other one. -/
def lineCount (file : SourceFile) : Nat :=
  if file.source.toList.getLast? = some '\n' then file.lines.length - 1 else file.lines.length

/-- A carriage return at the end of a line belongs to its terminator. -/
def terminatorPart (line : List Char) : Nat := if line.getLast? = some '\r' then 1 else 0

def lineRange (file : SourceFile) (line : Nat) : Option ByteRange :=
  match line with
  | 0 => none
  | index + 1 =>
    file.lines[index]?.map fun text =>
      let start := byteLength ((file.lines.take index).flatMap fun text => text ++ ['\n'])
      ⟨start, start + byteLength text - terminatorPart text⟩

/-- Walks over characters from a location until `offset` bytes are passed. -/
def locate (location : ByteLocation) : (offset : Nat) → List Char → Option ByteLocation
  | 0, _ => some location
  | _ + 1, [] => none
  | offset + 1, c :: cs =>
    if c.utf8Size ≤ offset + 1 then
      locate (location.next c) (offset + 1 - c.utf8Size) cs
    else none

def location (file : SourceFile) (offset : Nat) : Option ByteLocation :=
  locate ⟨1, 0⟩ offset file.source.toList

/-- The bytes from `start` up to `stop` as text; a character that is cut by an
end becomes a replacement character. -/
def slice (file : SourceFile) (start stop : Nat) : String :=
  Utf8.decode (((Utf8.encode file.source).drop start).take (stop - start))

def byteCount (file : SourceFile) : Nat := byteLength file.source.toList

end SourceFile

end Excerpt
