import Excerpt.Proofs.Source.Front
import Excerpt.Source.Store

/-! A table answers what the text of its file says. A line starts behind a byte that is a
line feed, because no other character has such a byte. Offsets inside of a character are
those of bytes that go on with it. The search for the line of an offset ends at the last
one that starts there or before. -/
namespace Excerpt

open SourceFile (byteLength)

namespace LineTable

theorem feed_mem_encodeChar_iff {c : Char} : feed ∈ String.utf8EncodeChar c ↔ c = '\n' :=
  Utf8.mem_encodeChar_iff '\n' (by decide)

theorem getLast?_encodeChar_iff {c : Char} :
    (String.utf8EncodeChar c).getLast? = some carriage ↔ c = '\r' := by
  constructor
  · intro last
    exact (Utf8.mem_encodeChar_iff '\r' (by decide)).mp (List.mem_of_getLast? last)
  · rintro rfl
    decide

theorem encodeChars_cons (c : Char) (cs : List Char) :
    Utf8.encodeChars (c :: cs) = String.utf8EncodeChar c ++ Utf8.encodeChars cs :=
  List.flatMap_cons

/-! ## Where lines start -/

theorem startsFrom_append {bytes : List UInt8} (free : feed ∉ bytes) (offset : Nat)
    (rest : List UInt8) :
    startsFrom offset (bytes ++ rest) = startsFrom (offset + bytes.length) rest := by
  induction bytes generalizing offset with
  | nil => rfl
  | cons byte bytes ih =>
    rw [List.mem_cons, not_or] at free
    rw [List.cons_append, startsFrom, if_neg (Ne.symm free.1), ih free.2, List.length_cons,
      Nat.add_assoc, Nat.add_comm 1]

/-- A line starts behind the lines before it. -/
theorem getElem?_startsFrom (offset : Nat) (cs : List Char) (index : Nat) :
    (offset :: startsFrom offset (Utf8.encodeChars cs))[index]? =
      (cs.splitOn '\n')[index]?.map fun _ => offset +
        byteLength (((cs.splitOn '\n').take index).flatMap fun text => text ++ ['\n']) := by
  induction cs generalizing offset index with
  | nil => cases index <;> rfl
  | cons c cs ih =>
    rw [List.splitOn_cons_eq_if_modifyHead, encodeChars_cons]
    split
    · rename_i feeds
      obtain rfl := eq_of_beq feeds
      have one : String.utf8EncodeChar '\n' = [feed] := rfl
      rw [one, List.singleton_append, startsFrom, if_pos rfl]
      cases index with
      | zero => rfl
      | succ index =>
        rw [List.getElem?_cons_succ, List.getElem?_cons_succ, ih, List.take_succ_cons,
          List.flatMap_cons, List.nil_append, SourceFile.byteLength_append]
        simp only [← Nat.add_assoc]
        rfl
    · rename_i other
      have free : feed ∉ String.utf8EncodeChar c := fun own =>
        other (beq_iff_eq.mpr (feed_mem_encodeChar_iff.mp own))
      rw [startsFrom_append free, String.length_utf8EncodeChar]
      cases lines : cs.splitOn '\n' with
      | nil => exact absurd lines (List.splitOn_ne_nil _ _)
      | cons first rest =>
        cases index with
        | zero => rfl
        | succ index =>
          have later := ih (offset + c.utf8Size) (index + 1)
          rw [List.getElem?_cons_succ, lines, List.take_succ_cons, List.flatMap_cons] at later
          rw [List.getElem?_cons_succ, later, List.modifyHead_cons, List.take_succ_cons,
            List.flatMap_cons, List.cons_append, List.cons_append, SourceFile.byteLength]
          simp only [Nat.add_assoc]
          rfl

variable {file : SourceFile} {index : Nat} {line : List Char}

theorem getElem?_starts (file : SourceFile) (index : Nat) :
    (ofFile file).starts[index]? =
      file.lines[index]?.map fun _ => byteLength (file.front index) := by
  have own := getElem?_startsFrom 0 file.source.toList index
  simp only [Nat.zero_add] at own
  rw [ofFile, List.getElem?_toArray]
  exact own

theorem size_starts (file : SourceFile) : (ofFile file).starts.size = file.lines.length := by
  have bound (index : Nat) :
      (ofFile file).starts.size ≤ index ↔ file.lines.length ≤ index := by
    rw [← Array.getElem?_eq_none_iff, getElem?_starts, Option.map_eq_none_iff,
      List.getElem?_eq_none_iff]
  exact Nat.le_antisymm ((bound _).mpr (Nat.le_refl _)) ((bound _).mp (Nat.le_refl _))

theorem start_ofFile (inside : index < file.lines.length) :
    (ofFile file).start index = byteLength (file.front index) := by
  rw [start, Array.getD_eq_getD_getElem?, getElem?_starts, List.getElem?_eq_getElem inside]
  rfl

theorem bytes_ofFile (file : SourceFile) (index : Nat) :
    (ofFile file).bytes[index]? = (Utf8.encodeChars file.source.toList)[index]? := by
  rw [ofFile, List.getElem?_toArray]
  rfl

@[simp] theorem byteCount_ofFile (file : SourceFile) :
    (ofFile file).byteCount = file.byteCount := by
  rw [byteCount, ofFile, List.size_toArray]
  exact SourceFile.length_encodeChars _

@[simp] theorem lineCount_ofFile (file : SourceFile) :
    (ofFile file).lineCount = file.lineCount := by
  obtain ⟨index, line, last, found⟩ := file.exists_last_line
  have whole := congrArg byteLength (SourceFile.source_of_last_line found last)
  have filled : 0 < file.byteCount ↔ file.source.toList ≠ [] := by
    rw [Nat.pos_iff_ne_zero, not_iff_not]
    exact ⟨SourceFile.eq_nil_of_byteLength, fun empty => congrArg byteLength empty⟩
  have closed : (ofFile file).starts.back? = some file.byteCount ↔ line = [] := by
    rw [Array.back?, size_starts, last, Nat.add_sub_cancel, getElem?_starts, found,
      Option.map_some, Option.some_inj, SourceFile.byteCount, whole, SourceFile.byteLength_append]
    constructor
    · exact fun same => SourceFile.eq_nil_of_byteLength (by omega)
    · rintro rfl
      rfl
  rw [lineCount, SourceFile.lineCount, size_starts, byteCount_ofFile]
  congr 1
  rw [filled, closed, SourceFile.getLast?_eq_feed_iff found last, and_comm]

/-! ## The bytes of a line -/

/-- The byte in front of an offset between characters is the last one of a character. -/
theorem carriage_before_iff {before after : List Char} {c : Char}
    (split : file.source.toList = before ++ [c] ++ after) :
    (ofFile file).bytes[byteLength (before ++ [c]) - 1]? = some carriage ↔ c = '\r' := by
  have size := c.utf8Size_pos
  have one : byteLength [c] = c.utf8Size := Nat.add_zero _
  have front := SourceFile.length_encodeChars before
  have own : Utf8.encodeChars [c] = String.utf8EncodeChar c := List.append_nil _
  have place : byteLength before + c.utf8Size - 1 - byteLength before = c.utf8Size - 1 := by omega
  rw [bytes_ofFile, split, List.append_assoc, Utf8.encodeChars_append, Utf8.encodeChars_append,
    SourceFile.byteLength_append, one, List.getElem?_append_right (by omega), front, place, own,
    List.getElem?_append_left (by rw [String.length_utf8EncodeChar]; omega),
    ← String.length_utf8EncodeChar, ← List.getLast?_eq_getElem?, getLast?_encodeChar_iff]

/-- The next line starts behind the line feed, and the last line ends with the text. -/
theorem stop_ofFile (found : file.lines[index]? = some line) :
    (ofFile file).stop index = byteLength (file.front index) + byteLength line := by
  obtain ⟨after, _, ⟨more, _⟩ | ⟨last, _⟩⟩ := SourceFile.split_at_line found
  · rw [stop, getElem?_starts, List.getElem?_eq_getElem more, SourceFile.front_succ found]
    simp only [Option.map_some, SourceFile.byteLength_append]
    rfl
  · rw [stop, getElem?_starts, List.getElem?_eq_none_iff.mpr (Nat.le_of_eq last), Option.map_none,
      byteCount_ofFile, SourceFile.byteCount, SourceFile.source_of_last_line found last,
      SourceFile.byteLength_append]

@[simp] theorem lineRange_ofFile (file : SourceFile) (line : Nat) :
    (ofFile file).lineRange line = file.lineRange line := by
  cases line with
  | zero => rfl
  | succ index =>
    rw [lineRange, SourceFile.lineRange, getElem?_starts file index]
    cases found : file.lines[index]? with
    | none => rfl
    | some text =>
      simp only [Option.map_some, stop_ofFile found]
      rcases List.eq_nil_or_concat' text with rfl | ⟨text, c, rfl⟩
      · rw [if_neg (by simp [byteLength])]
        rfl
      · obtain ⟨after, split, _⟩ := SourceFile.split_at_line found
        have source : file.source.toList = (file.front index ++ text) ++ [c] ++ after := by
          rw [split.source, ← List.append_assoc]
        have byte := carriage_before_iff source
        rw [List.append_assoc, SourceFile.byteLength_append] at byte
        have filled : 0 < byteLength (text ++ [c]) :=
          Nat.pos_of_ne_zero fun empty =>
            List.concat_ne_nil c text (SourceFile.eq_nil_of_byteLength empty)
        rw [SourceFile.terminatorPart_concat]
        by_cases ended : c = '\r'
        · rw [if_pos ended, if_pos ⟨Nat.lt_add_of_pos_right filled, byte.mpr ended⟩]
          rfl
        · rw [if_neg ended, if_neg fun both => ended (byte.mp both.2)]
          rfl

/-! ## The line of an offset -/

/-- The offsets in range at which no byte goes on with a character are those behind the
fronts of a text. -/
theorem exists_front_iff {cs : List Char} {offset : Nat} :
    (∃ before, before <+: cs ∧ byteLength before = offset) ↔
      offset ≤ byteLength cs ∧
        (Utf8.encodeChars cs)[offset]?.any (fun byte => Utf8.continues byte.toNat) = false := by
  induction cs generalizing offset with
  | nil =>
    simp only [List.prefix_nil, exists_eq_left, byteLength, Nat.le_zero]
    constructor
    · rintro rfl
      exact ⟨rfl, rfl⟩
    · exact fun h => h.1.symm
  | cons c cs ih =>
    have size := c.utf8Size_pos
    obtain ⟨first, rest, bytes, starts, later⟩ := Utf8.exists_encodeChar c
    have length := String.length_utf8EncodeChar c
    rw [encodeChars_cons, byteLength]
    rcases Nat.lt_or_ge offset c.utf8Size with within | behind
    · rw [List.getElem?_append_left (by omega)]
      cases offset with
      | zero =>
        refine iff_of_true ⟨[], List.nil_prefix, rfl⟩ ⟨Nat.zero_le _, ?_⟩
        rw [bytes]
        exact starts
      | succ offset =>
        -- Inside of the first character.
        refine iff_of_false ?_ ?_
        · rintro ⟨before, hf, size'⟩
          cases before with
          | nil => cases size'
          | cons d before =>
            obtain ⟨rfl, _⟩ := List.cons_prefix_cons.mp hf
            rw [byteLength] at size'
            omega
        · rintro ⟨_, stays⟩
          rw [bytes, List.length_cons] at length
          have own : offset < rest.length := by omega
          rw [bytes, List.getElem?_cons_succ, List.getElem?_eq_getElem own, Option.any_some,
            later _ (List.getElem_mem own)] at stays
          cases stays
    · rw [List.getElem?_append_right (by omega), length]
      have back : (∃ before, before <+: cs ∧ byteLength before = offset - c.utf8Size) ↔ _ := ih
      constructor
      · rintro ⟨before, hf, rfl⟩
        cases before with
        | nil =>
          rw [byteLength] at behind
          omega
        | cons d before =>
          obtain ⟨rfl, shorter⟩ := List.cons_prefix_cons.mp hf
          rw [byteLength, Nat.add_sub_cancel_left] at back ⊢
          obtain ⟨inside, free⟩ := back.mp ⟨before, shorter, rfl⟩
          exact ⟨by omega, free⟩
      · rintro ⟨inside, free⟩
        obtain ⟨before, hf, own⟩ := back.mpr ⟨by omega, free⟩
        refine ⟨c :: before, (List.prefix_cons_inj c).mpr hf, ?_⟩
        rw [byteLength, own]
        omega

/-- The search keeps the line it looks for between its ends until they meet there. -/
theorem search_eq {table : LineTable} {offset low high line : Nat} (from_low : low ≤ line)
    (to_high : line ≤ high) (parted : ∀ index ≤ high, table.start index ≤ offset ↔ index ≤ line) :
    table.search offset low high = line := by
  fun_induction search table offset low high with
  | case1 low high open_ middle here ih =>
    exact ih ((parted middle (by omega)).mp here) to_high parted
  | case2 low high open_ middle beyond ih =>
    have above := mt (parted middle (by omega)).mpr beyond
    exact ih from_low (by omega) fun index inside => parted index (by omega)
  | case3 low high met => omega

theorem search_ofFile {before : List Char} (hf : before <+: file.source.toList) :
    (ofFile file).search (byteLength before) 0 ((ofFile file).starts.size - 1) =
      before.count '\n' := by
  have fewer := SourceFile.count_lt_length_lines hf
  rw [size_starts]
  refine search_eq (Nat.zero_le _) (by omega) fun index bound => ?_
  have inside : index < file.lines.length := by omega
  rw [start_ofFile inside, SourceFile.byteLength_front_le_iff hf inside]

/-- Behind a front of a text is the location that walking over the front leads to. -/
theorem location_of_front {before : List Char} (hf : before <+: file.source.toList) :
    (ofFile file).location (byteLength before) = some (before.foldl ByteLocation.next ⟨1, 0⟩) := by
  obtain ⟨within, free⟩ := exists_front_iff.mp ⟨before, hf, rfl⟩
  have inside : ¬file.byteCount < byteLength before := Nat.not_lt.mpr within
  have fewer := SourceFile.count_lt_length_lines hf
  obtain ⟨after, split, _⟩ := SourceFile.split_at_line (List.getElem?_eq_getElem fewer)
  rw [Nat.add_comm] at split
  have column := congrArg byteLength (split.front_eq hf)
  rw [SourceFile.byteLength_append] at column
  rw [location, byteCount_ofFile, bytes_ofFile, if_neg inside, free,
    if_neg Bool.false_ne_true, search_ofFile hf, ByteLocation.foldl_next]
  dsimp only
  rw [start_ofFile fewer, column, Nat.add_sub_cancel_left, Nat.add_comm 1]

@[simp] theorem location_ofFile (file : SourceFile) (offset : Nat) :
    (ofFile file).location offset = file.location offset := by
  by_cases within : ∃ before, before <+: file.source.toList ∧ byteLength before = offset
  · obtain ⟨before, hf, rfl⟩ := within
    rw [location_of_front hf]
    exact (SourceFile.locate_eq_some_iff.mpr ⟨before, hf, rfl, rfl⟩).symm
  · have none_found : file.location offset = none := by
      rw [Option.eq_none_iff_forall_ne_some]
      intro location found
      obtain ⟨before, hf, own, _⟩ := SourceFile.locate_eq_some_iff.mp found
      exact within ⟨before, hf, own⟩
    rw [none_found, location, byteCount_ofFile, bytes_ofFile]
    split
    · rfl
    · rename_i inside
      rw [if_pos]
      by_contra free
      rw [Bool.not_eq_true] at free
      exact within (exists_front_iff.mpr ⟨Nat.not_lt.mp inside, free⟩)

@[simp] theorem slice_ofFile (file : SourceFile) (start stop : Nat) :
    (ofFile file).slice start stop = file.slice start stop := by
  simp [slice, ofFile, SourceFile.slice, List.extract]

end LineTable

namespace Store

theorem sources_lineCount (store : Store) (id : Number) :
    store.sources.lineCount id = (store.file? id).map SourceFile.lineCount := by
  simp only [sources, table?_tables]
  cases store.file? id <;> simp

theorem sources_lineRange (store : Store) (id line : Number) :
    store.sources.lineRange id line =
      (store.file? id).bind fun file => line.toNat?.bind file.lineRange := by
  simp only [sources, table?_tables]
  cases store.file? id with
  | none => rfl
  | some file => exact congrArg line.toNat?.bind (funext (LineTable.lineRange_ofFile file))

theorem sources_location (store : Store) (id offset : Number) :
    store.sources.location id offset =
      (store.file? id).bind fun file => offset.toNat?.bind file.location := by
  simp only [sources, table?_tables]
  cases store.file? id with
  | none => rfl
  | some file => exact congrArg offset.toNat?.bind (funext (LineTable.location_ofFile file))

theorem sources_slice (store : Store) (id start stop : Number) :
    store.sources.slice id start stop =
      (store.file? id).bind fun file =>
        (sliceEnds? file.byteCount start stop).map fun (start, stop) => file.slice start stop := by
  simp only [sources, table?_tables]
  cases store.file? id <;> simp

end Store
end Excerpt
