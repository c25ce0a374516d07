import Excerpt.Proofs.Source.Terminator
import Excerpt.Proofs.Text.Utf16

/-! What a store answers about a file it holds. The answers fit the text and each other,
whatever units the text has, and files that are added later change none of them. A half of a
character that stands alone in the text is replaced in what is sliced. -/
namespace Excerpt

open SourceFile (byteLength)
open Utf16 (Point)

/-- Files are added one after another. -/
def Store.addAll (store : Store) (files : List SourceFile) : Store :=
  files.foldl (fun store file => (store.addFile file).2) store

/-- Characters are cut where code points are. -/
theorem SourceFile.hasBoundary_iff (file : SourceFile) (offset : Number) :
    file.HasBoundary offset ↔ ∃ front, front <+: Utf16.points file.units ∧
      offset = (byteLength (front.map Point.toChar) : Number) := by
  rw [HasBoundary, source, String.toList_ofList, Utf16.decode]
  constructor
  · rintro ⟨before, ⟨after, split⟩, rfl⟩
    obtain ⟨front, back, parts, rfl, _⟩ := List.map_eq_append_iff.mp split.symm
    exact ⟨front, ⟨back, parts.symm⟩, rfl⟩
  · rintro ⟨front, inside, rfl⟩
    exact ⟨_, inside.map _, rfl⟩

namespace Sources

/-- The same is said about a file, whatever is asked. -/
structure SameOn (a b : Sources) (file : Number) : Prop where
  name : a.name file = b.name file
  source : a.source file = b.source file
  lineCount : a.lineCount file = b.lineCount file
  lineRange (line : Number) : a.lineRange file line = b.lineRange file line
  location (offset : Number) : a.location file offset = b.location file offset
  slice (start stop : Number) : a.slice file start stop = b.slice file start stop

/-- What is said about a file fits its text, and one answer the others. -/
structure Consistent (sources : Sources) (id : Number) (file : SourceFile) : Prop where
  name : sources.name id = some file.name
  source : sources.source id = some file.source
  /-- The offsets between code points have a location, and no others. -/
  located (offset : Number) :
    (∃ location, sources.location id offset = some location) ↔
      ∃ front, front <+: Utf16.points file.units ∧
        offset = (byteLength (front.map Point.toChar) : Number)
  /-- The line of a location is the last one that starts at the offset or before it. -/
  on_line {offset : Number} {location : ByteLocation}
    (found : sources.location id offset = some location) :
    ∃ range, sources.lineRange id (location.line : Number) = some range ∧
      ((range.start + location.byteColumn : Nat) : Number) = offset ∧
      ∀ (line : Number) (other : ByteRange), sources.lineRange id line = some other →
        ((other.start : Number) ≤ offset ↔ line ≤ (location.line : Number))
  /-- A line feed at the end of the text starts no line that counts. -/
  lineCount : sources.lineCount id =
    some (file.source.toList.count '\n' +
      if file.source.toList.getLast? = some '\n' then 0 else 1)
  /-- All lines that count have a range. -/
  ranged {count line : Nat} (counted : sources.lineCount id = some count) (first : 1 ≤ line)
    (last : line ≤ count) : ∃ range, sources.lineRange id (line : Number) = some range
  /-- At most one other line has a range, which is empty and at the end of the text. -/
  further {count : Nat} {line : Number} {range : ByteRange}
    (counted : sources.lineCount id = some count)
    (found : sources.lineRange id line = some range) :
    (∃ n : Nat, line = (n : Number) ∧ 1 ≤ n ∧ n ≤ count) ∨
      line = ((count + 1 : Nat) : Number) ∧ range = ⟨file.byteCount, file.byteCount⟩
  /-- Slices can be put together between characters. -/
  joined {a b c : Nat} (first : file.HasBoundary (a : Number))
    (middle : file.HasBoundary (b : Number)) (last : file.HasBoundary (c : Number)) (ab : a ≤ b)
    (bc : b ≤ c) :
    ∃ front back, sources.slice id (a : Number) (b : Number) = some front ∧
      sources.slice id (b : Number) (c : Number) = some back ∧
      sources.slice id (a : Number) (c : Number) = some (front ++ back)
  /-- All bytes are the text, in which halves that stand alone are replaced. -/
  whole : sources.slice id (0 : Nat) (file.byteCount : Number) = some file.source
  intact : Utf16.encode file.source.toList = file.units ↔ Utf16.WellFormed file.units

end Sources

namespace Store

variable {store : Store} {id : Number} {file : SourceFile}

/-! ## Adding files -/

theorem files_addAll (store : Store) (files : List SourceFile) :
    (store.addAll files).files = store.files ++ files := by
  induction files generalizing store with
  | nil => exact (List.append_nil _).symm
  | cons file files ih =>
    have step : store.addAll (file :: files) = (store.addFile file).2.addAll files := rfl
    rw [step, ih, addFile, List.append_assoc]
    rfl

/-- The id that is handed out is that of the file. -/
theorem file?_addFile (store : Store) (file : SourceFile) :
    (store.addFile file).2.file? (store.addFile file).1 = some file := by
  rw [file?, addFile, Number.toNat?_natCast, Option.bind_some]
  exact List.getElem?_concat_length

/-- A file stays where it is. -/
theorem file?_addAll (known : store.file? id = some file) (later : List SourceFile) :
    (store.addAll later).file? id = some file := by
  obtain ⟨index, whole, found⟩ := Option.bind_eq_some_iff.mp known
  have inside := (List.getElem?_eq_some_iff.mp found).1
  rw [file?, whole, Option.bind_some, files_addAll, List.getElem?_append_left inside, found]

/-- A store knows nothing of a file but the file. -/
theorem sameOn_of_file? {a b : Store} (same : a.file? id = b.file? id) :
    a.sources.SameOn b.sources id where
  name := congrArg (Option.map SourceFile.name) same
  source := congrArg (Option.map SourceFile.source) same
  lineCount := by rw [sources_lineCount, sources_lineCount, same]
  lineRange line := by rw [sources_lineRange, sources_lineRange, same]
  location offset := by rw [sources_location, sources_location, same]
  slice start stop := by rw [sources_slice, sources_slice, same]

/-! ## Answers about a file -/

variable (known : store.file? id = some file)

include known

/-- A line that has a range is one of the file, and starts behind the lines before it. -/
theorem exists_line_of_lineRange {line : Number} {range : ByteRange}
    (found : store.sources.lineRange id line = some range) :
    ∃ index text, line = ((index + 1 : Nat) : Number) ∧ file.lines[index]? = some text ∧
      range = ⟨byteLength (file.front index),
        byteLength (file.front index) + byteLength (SourceFile.shownPart text)⟩ := by
  rw [sources_lineRange, known, Option.bind_some] at found
  obtain ⟨n, whole, found⟩ := Option.bind_eq_some_iff.mp found
  cases n with
  | zero => cases found
  | succ index =>
    obtain ⟨text, own, _⟩ := Option.map_eq_some_iff.mp found
    rw [SourceFile.lineRange_of_line own] at found
    exact ⟨index, text, Number.toNat?_eq_some_iff.mp whole, own, (Option.some.inj found).symm⟩

theorem exists_front_of_location {offset : Number} {location : ByteLocation}
    (found : store.sources.location id offset = some location) :
    ∃ before, before <+: file.source.toList ∧ offset = (byteLength before : Number) ∧
      location = ⟨1 + before.count '\n', byteLength (lastLine before)⟩ := by
  have boundary : file.HasBoundary offset := by
    by_contra cut
    rw [(location_eq_none_iff known).mpr cut] at found
    cases found
  obtain ⟨before, hf, rfl⟩ := boundary
  rw [location_of_front known hf] at found
  exact ⟨before, hf, rfl, (Option.some.inj found).symm⟩

theorem line_of_location {offset : Number} {location : ByteLocation}
    (found : store.sources.location id offset = some location) :
    ∃ range, store.sources.lineRange id (location.line : Number) = some range ∧
      ((range.start + location.byteColumn : Nat) : Number) = offset ∧
      ∀ (line : Number) (other : ByteRange), store.sources.lineRange id line = some other →
        ((other.start : Number) ≤ offset ↔ line ≤ (location.line : Number)) := by
  obtain ⟨before, hf, rfl, rfl⟩ := exists_front_of_location known found
  have own := List.getElem?_eq_getElem (SourceFile.count_lt_length_lines hf)
  have range := (lineRange_natCast known _).trans (SourceFile.lineRange_of_line own)
  rw [Nat.add_comm] at range
  refine ⟨_, range, ?column, fun line other ranged => ?last⟩
  case column =>
    obtain ⟨after, split, _⟩ := SourceFile.split_at_line own
    rw [Nat.add_comm] at split
    have parts := congrArg byteLength (split.front_eq hf)
    rw [SourceFile.byteLength_append] at parts
    exact congrArg _ parts.symm
  case last =>
    obtain ⟨index, text, rfl, there, rfl⟩ := exists_line_of_lineRange known ranged
    have lines := (List.getElem?_eq_some_iff.mp there).1
    rw [LinearCoordinate.natCast_le, LinearCoordinate.natCast_le,
      SourceFile.byteLength_front_le_iff hf lines, Nat.add_comm 1, Nat.add_le_add_iff_right]

/-- The search goes over all lines of the file, and ends at the one of the location. -/
theorem search_of_location {offset : Nat} {location : ByteLocation}
    (found : store.sources.location id (offset : Number) = some location) :
    (LineTable.ofFile file).search offset 0 ((LineTable.ofFile file).starts.size - 1) + 1 =
      location.line := by
  obtain ⟨before, hf, same, rfl⟩ := exists_front_of_location known found
  rw [LinearCoordinate.natCast_inj.mp same, LineTable.search_ofFile hf]
  exact Nat.add_comm _ 1

/-- Lines are counted by their line feeds. -/
theorem lineCount_eq : store.sources.lineCount id =
    some (file.source.toList.count '\n' +
      if file.source.toList.getLast? = some '\n' then 0 else 1) := by
  rw [sources_lineCount, known, Option.map_some, SourceFile.lineCount, SourceFile.length_lines]
  split <;> rfl

theorem exists_range_of_count {count line : Nat}
    (counted : store.sources.lineCount id = some count) (first : 1 ≤ line) (last : line ≤ count) :
    ∃ range, store.sources.lineRange id (line : Number) = some range := by
  rw [lineCount_eq known] at counted
  obtain rfl := Option.some.inj counted
  rw [← Option.ne_none_iff_exists', lineRange_ne_none_iff known]
  refine ⟨line, rfl, first, last.trans ?_⟩
  split <;> omega

/-- Only the end of a text behind a line feed is a line that does not count. -/
theorem counted_or_end {count : Nat} {line : Number} {range : ByteRange}
    (counted : store.sources.lineCount id = some count)
    (found : store.sources.lineRange id line = some range) :
    (∃ n : Nat, line = (n : Number) ∧ 1 ≤ n ∧ n ≤ count) ∨
      line = ((count + 1 : Nat) : Number) ∧ range = ⟨file.byteCount, file.byteCount⟩ := by
  have lines := file.length_lines
  rw [lineCount_eq known] at counted
  obtain ⟨index, text, rfl, own, rfl⟩ := exists_line_of_lineRange known found
  have inside := (List.getElem?_eq_some_iff.mp own).1
  by_cases more : index + 1 ≤ count
  · exact .inl ⟨index + 1, rfl, by omega, more⟩
  · right
    obtain rfl := Option.some.inj counted
    split at more
    · rename_i feeds
      have last : file.lines.length = index + 1 := by omega
      obtain ⟨rfl, _⟩ := (SourceFile.getLast?_eq_feed_iff own last).mp feeds
      have whole := congrArg byteLength (SourceFile.source_of_last_line own last)
      rw [List.append_nil] at whole
      refine ⟨congrArg _ (by rw [if_pos feeds]; omega), ?_⟩
      rw [SourceFile.byteCount, whole]
      rfl
    · omega

theorem slices_joined {a b c : Nat} (first : file.HasBoundary (a : Number))
    (middle : file.HasBoundary (b : Number)) (last : file.HasBoundary (c : Number)) (ab : a ≤ b)
    (bc : b ≤ c) :
    ∃ front back, store.sources.slice id (a : Number) (b : Number) = some front ∧
      store.sources.slice id (b : Number) (c : Number) = some back ∧
      store.sources.slice id (a : Number) (c : Number) = some (front ++ back) := by
  have at_front {n : Nat} (boundary : file.HasBoundary (n : Number)) :
      ∃ front, front <+: file.source.toList ∧ byteLength front = n := by
    obtain ⟨front, hf, same⟩ := boundary
    exact ⟨front, hf, (LinearCoordinate.natCast_inj.mp same).symm⟩
  obtain ⟨x, hx, rfl⟩ := at_front first
  obtain ⟨y, hy, rfl⟩ := at_front middle
  obtain ⟨z, hz, rfl⟩ := at_front last
  obtain ⟨front, rfl⟩ := SourceFile.prefix_of_byteLength_le hx hy ab
  obtain ⟨back, rfl⟩ := SourceFile.prefix_of_byteLength_le hy hz bc
  obtain ⟨rest, source⟩ := hz
  have split : file.source.toList = x ++ front ++ (back ++ rest) := by
    rw [← source, List.append_assoc (x ++ front)]
  have split' : file.source.toList = (x ++ front) ++ back ++ rest := source.symm
  have split'' : file.source.toList = x ++ (front ++ back) ++ rest := by
    rw [← source, ← List.append_assoc x]
  refine ⟨String.ofList front, String.ofList back, ?_, ?_, ?_⟩
  · rw [SourceFile.byteLength_append]
    exact slice_of_split known split
  · rw [SourceFile.byteLength_append (x ++ front)]
    exact slice_of_split known split'
  · rw [← String.ofList_append, List.append_assoc, SourceFile.byteLength_append x]
    exact slice_of_split known split''

theorem slice_whole :
    store.sources.slice id (0 : Nat) (file.byteCount : Number) = some file.source := by
  have split : file.source.toList = [] ++ file.source.toList ++ [] := by simp
  have whole := slice_of_split known split
  rw [String.ofList_toList] at whole
  rw [← whole, SourceFile.byteCount, byteLength, Nat.zero_add]

theorem consistent : store.sources.Consistent id file where
  name := congrArg (Option.map SourceFile.name) known
  source := congrArg (Option.map SourceFile.source) known
  located offset := by
    rw [← Option.ne_none_iff_exists', ne_eq, location_eq_none_iff known, not_not,
      file.hasBoundary_iff]
  on_line := line_of_location known
  lineCount := lineCount_eq known
  ranged := exists_range_of_count known
  further := counted_or_end known
  joined := slices_joined known
  whole := slice_whole known
  intact := by
    rw [SourceFile.source, String.toList_ofList]
    exact Utf16.encode_decode_iff file.units

end Store

namespace Sample

/-- Two bytes that end a line, and characters of two and three bytes. -/
def encodedText : String := "a\r\nä€\n"

/-- A text of one unit, which is half of a character. -/
def halved : SourceFile := ⟨Utf16.encode ['f'], [0xD800]⟩

end Sample

end Excerpt
