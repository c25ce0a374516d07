import Excerpt.Source.Table

/-! Source files held in memory. A file is addressed by the number of files
that were added before it. -/
namespace Excerpt

structure Store where
  files : List SourceFile
  deriving DecidableEq, Repr

namespace Store

def empty : Store := ⟨[]⟩

def count (store : Store) : Nat := store.files.length

/-- A file gets the next free id. -/
def addFile (store : Store) (file : SourceFile) : Nat × Store :=
  (store.count, ⟨store.files ++ [file]⟩)

def add (store : Store) (name source : String) : Nat × Store :=
  store.addFile (.ofText name source)

def ofList (files : List (String × String)) : Store :=
  ⟨files.map fun file => .ofText file.1 file.2⟩

def file? (store : Store) (id : Number) : Option SourceFile :=
  id.toNat?.bind fun index => store.files[index]?

/-- The tables of all files, found once for many questions. -/
def tables (store : Store) : Array LineTable := (store.files.map LineTable.ofFile).toArray

def table? (tables : Array LineTable) (id : Number) : Option LineTable :=
  id.toNat?.bind fun index => tables[index]?

/-- Ends of a slice may have fractions, which are cut off once they are known to
be in order and inside of the text. -/
def sliceEnds? (byteCount : Nat) (start stop : Number) : Option (Nat × Nat) :=
  if start.less (0 : Nat) || stop.less start || (byteCount : Number).less stop then none
  else
    match start.whole?, stop.whole? with
    | some start, some stop => some (start, stop)
    | _, _ => none

def sources (store : Store) : Sources :=
  let tables := store.tables
  { name id := (store.file? id).map SourceFile.name
    source id := (store.file? id).map SourceFile.source
    lineCount id := (table? tables id).map LineTable.lineCount
    lineRange id line := (table? tables id).bind fun table => line.toNat?.bind table.lineRange
    location id offset := (table? tables id).bind fun table => offset.toNat?.bind table.location
    slice id start stop := (table? tables id).bind fun table =>
      (sliceEnds? table.byteCount start stop).map fun (start, stop) => table.slice start stop }

theorem table?_tables (store : Store) (id : Number) :
    table? store.tables id = (store.file? id).map LineTable.ofFile := by
  simp only [table?, tables, file?]
  cases id.toNat? <;> simp

end Store
end Excerpt
