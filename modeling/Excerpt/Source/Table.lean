import Excerpt.Source.File

/-! The bytes of a file at hand, and where among them its lines start. A report asks for
line after line, and a table answers without going through the text again. -/
namespace Excerpt

structure LineTable where
  bytes : Array UInt8
  /-- The offsets of the first bytes of the lines. -/
  starts : Array Nat

namespace LineTable

def feed : UInt8 := 0x0A

def carriage : UInt8 := 0x0D

/-- The offsets behind the line feeds among some bytes, the first of which is at `offset`. -/
def startsFrom (offset : Nat) : List UInt8 → List Nat
  | [] => []
  | byte :: bytes =>
    if byte = feed then (offset + 1) :: startsFrom (offset + 1) bytes
    else startsFrom (offset + 1) bytes

def ofFile (file : SourceFile) : LineTable :=
  let bytes := Utf8.encode file.source
  ⟨bytes.toArray, (0 :: startsFrom 0 bytes).toArray⟩

def byteCount (table : LineTable) : Nat := table.bytes.size

/-- A final line feed ends the last line rather than starting another one. -/
def lineCount (table : LineTable) : Nat :=
  if 0 < table.byteCount ∧ table.starts.back? = some table.byteCount then table.starts.size - 1
  else table.starts.size

/-- Where a line ends, before the line feed or with the text. -/
def stop (table : LineTable) (index : Nat) : Nat :=
  match table.starts[index + 1]? with
  | none => table.byteCount
  | some next => next - 1

def lineRange (table : LineTable) (line : Nat) : Option ByteRange :=
  match line with
  | 0 => none
  | index + 1 =>
    table.starts[index]?.map fun start =>
      let stop := table.stop index
      if start < stop ∧ table.bytes[stop - 1]? = some carriage then ⟨start, stop - 1⟩
      else ⟨start, stop⟩

def start (table : LineTable) (index : Nat) : Nat := table.starts.getD index 0

/-- The last of the lines from `low` to `high` that starts at an offset or before it.
The first one has to; one look at a line in the middle leaves half of them. -/
def search (table : LineTable) (offset low high : Nat) : Nat :=
  if low < high then
    let middle := (low + high + 1) / 2
    if table.start middle ≤ offset then search table offset middle high
    else search table offset low (middle - 1)
  else low
termination_by high - low

def location (table : LineTable) (offset : Nat) : Option ByteLocation :=
  if table.byteCount < offset then none
  else if table.bytes[offset]?.any fun byte => Utf8.continues byte.toNat then none
  else
    let index := table.search offset 0 (table.starts.size - 1)
    some ⟨index + 1, offset - table.start index⟩

def slice (table : LineTable) (start stop : Nat) : String :=
  Utf8.decode (table.bytes.extract start stop).toList

end LineTable
end Excerpt
