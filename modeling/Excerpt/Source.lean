import Excerpt.Number

/-! Source files as the renderer reads them. Any store that answers these
questions will do; what a store does not know it answers with `none`. -/
namespace Excerpt

/-- The bytes from `start` up to but not including `stop`. -/
structure ByteRange where
  start : Nat
  stop : Nat
  deriving DecidableEq, Repr

/-- A line, counted from 1, and a byte of it, counted from 0. -/
structure ByteLocation where
  line : Nat
  byteColumn : Nat
  deriving DecidableEq, Repr

/-- The location behind a character. -/
def ByteLocation.next (location : ByteLocation) (c : Char) : ByteLocation :=
  if c = '\n' then ⟨location.line + 1, 0⟩
  else ⟨location.line, location.byteColumn + c.utf8Size⟩

structure Sources where
  /-- The name a file is shown under. -/
  name : (file : Number) → Option String
  /-- The characters of a file. -/
  source : (file : Number) → Option String
  lineCount : (file : Number) → Option Nat
  /-- The bytes of a line without its terminator; lines count from 1. -/
  lineRange : (file line : Number) → Option ByteRange
  /-- Where a byte offset is, unless it is outside of the text or inside of a character. -/
  location : (file offset : Number) → Option ByteLocation
  /-- The text of some bytes. -/
  slice : (file start stop : Number) → Option String

/-- The text of a line without its terminator; empty when there is no such line. -/
def Sources.line (sources : Sources) (file line : Number) : String :=
  match sources.lineRange file line with
  | none => ""
  | some range => (sources.slice file range.start range.stop).getD ""

end Excerpt
