import Excerpt.Proofs.Source.Position

/-! Lines and what ends them. Behind every line but the last stands a line feed, with the
carriage return in front of it if there is one; lines and terminators together are the
text, except for a carriage return that the last line ends in. -/
namespace Excerpt

open SourceFile (byteLength LineSplit)

/-- What stands between a line and the next one; nothing behind the last line. -/
def Sources.terminator (sources : Sources) (file : Number) (line : Nat) : String :=
  match sources.lineRange file (line : Number),
    sources.lineRange file ((line + 1 : Nat) : Number) with
  | some here, some next => (sources.slice file here.stop next.start).getD ""
  | _, _ => ""

/-- A line and what ends it. -/
def Sources.ended (sources : Sources) (file : Number) (line : Nat) : List Char :=
  (sources.line file (line : Number)).toList ++ (sources.terminator file line).toList

namespace SourceFile

/-- A line without the carriage return it ends in. -/
def shownPart (line : List Char) : List Char :=
  if line.getLast? = some '\r' then line.dropLast else line

/-- The carriage return a line ends in, if any. -/
def returnPart (line : List Char) : List Char :=
  if line.getLast? = some '\r' then ['\r'] else []

theorem shownPart_append_returnPart (line : List Char) :
    shownPart line ++ returnPart line = line := by
  unfold shownPart returnPart
  split
  · rename_i ends
    exact List.dropLast_append_getLast? _ ends
  · exact List.append_nil line

theorem byteLength_returnPart (line : List Char) :
    byteLength (returnPart line) = terminatorPart line := by
  unfold returnPart terminatorPart
  split <;> rfl

theorem byteLength_shownPart (line : List Char) :
    byteLength (shownPart line) + terminatorPart line = byteLength line := by
  have whole := congrArg byteLength (shownPart_append_returnPart line)
  rwa [byteLength_append, byteLength_returnPart] at whole

variable {file : SourceFile} {index : Nat} {line : List Char}

/-- What a line shows, the carriage return it ends in, and what is behind the line. -/
theorem parts_at_line (found : file.lines[index]? = some line) :
    ∃ after, file.source.toList =
        file.front index ++ shownPart line ++ returnPart line ++ after ∧
      (index + 1 < file.lines.length → ∃ rest, after = '\n' :: rest) := by
  obtain ⟨after, split, behind⟩ := split_at_line found
  refine ⟨after, ?_, ?_⟩
  · rw [List.append_assoc (file.front index) (shownPart line), shownPart_append_returnPart]
    exact split.source
  · intro more
    rcases behind with ⟨_, feed⟩ | ⟨last, _⟩
    · exact feed
    · omega

theorem lineRange_of_line (found : file.lines[index]? = some line) :
    file.lineRange (index + 1) =
      some ⟨byteLength (file.front index),
        byteLength (file.front index) + byteLength (shownPart line)⟩ := by
  have shorter := byteLength_shownPart line
  have range : file.lineRange (index + 1) = some ⟨byteLength (file.front index),
      byteLength (file.front index) + byteLength line - terminatorPart line⟩ := by
    rw [lineRange, found]
    rfl
  rw [range, show byteLength (file.front index) + byteLength line - terminatorPart line =
    byteLength (file.front index) + byteLength (shownPart line) by omega]

theorem lineRange_eq_none_iff {file : SourceFile} {line : Nat} :
    file.lineRange line = none ↔ ¬(1 ≤ line ∧ line ≤ 1 + file.source.toList.count '\n') := by
  have length := file.length_lines
  cases line with
  | zero => simp [lineRange]
  | succ index =>
    rw [lineRange, Option.map_eq_none_iff, List.getElem?_eq_none_iff, length]
    omega

/-- The last line ends in a carriage return if the text does. -/
theorem returnPart_last_line (found : file.lines[index]? = some line)
    (last : file.lines.length = index + 1) :
    returnPart line = returnPart file.source.toList := by
  rw [source_of_last_line found last]
  rcases List.eq_nil_or_concat' line with rfl | ⟨text, c, rfl⟩
  · -- An empty last line stands behind a line feed, or the text is empty.
    cases index with
    | zero => rfl
    | succ index =>
      have inside : index < file.lines.length := by omega
      rw [front_succ (List.getElem?_eq_getElem inside), List.append_nil, ← List.append_assoc]
      simp [returnPart]
  · rw [← List.append_assoc]
    simp [returnPart]

end SourceFile

namespace Store

open SourceFile (front shownPart returnPart terminatorPart)

variable {store : Store} {id : Number} {file : SourceFile} {index : Nat} {line : List Char}
  (known : store.file? id = some file)

include known

theorem lineRange_natCast (n : Nat) :
    store.sources.lineRange id (n : Number) = file.lineRange n := by
  rw [sources_lineRange, known, Option.bind_some, Number.toNat?_natCast, Option.bind_some]

/-- Between the fronts of a text stands the text between them. -/
theorem slice_of_split {before text after : List Char}
    (split : file.source.toList = before ++ text ++ after) :
    store.sources.slice id (byteLength before : Number)
        ((byteLength before + byteLength text : Nat) : Number) = some (String.ofList text) := by
  have inside : byteLength before + byteLength text ≤ file.byteCount := by
    rw [SourceFile.byteCount, split]
    simp only [SourceFile.byteLength_append]
    omega
  rw [sources_slice, known, Option.bind_some, sliceEnds?_natCast (Nat.le_add_right _ _) inside,
    Option.map_some]
  exact congrArg some (SourceFile.slice_of_split split)

variable (found : file.lines[index]? = some line)

include found

theorem line_of_line :
    store.sources.line id ((index + 1 : Nat) : Number) = String.ofList (shownPart line) := by
  obtain ⟨after, parts, _⟩ := SourceFile.parts_at_line found
  rw [List.append_assoc] at parts
  rw [Sources.line, lineRange_natCast known, SourceFile.lineRange_of_line found]
  exact congrArg (Option.getD · "") (slice_of_split known parts)

/-- In front of the line feed behind a line stands the line with its carriage return. -/
theorem slice_line :
    store.sources.slice id (byteLength (file.front index) : Number)
        ((byteLength (file.front (index + 1)) - 1 : Nat) : Number) = some (String.ofList line) := by
  obtain ⟨after, split, _⟩ := SourceFile.split_at_line found
  have feed : byteLength ['\n'] = 1 := rfl
  have stop : byteLength (file.front (index + 1)) - 1 =
      byteLength (file.front index) + byteLength line := by
    rw [SourceFile.front_succ found, SourceFile.byteLength_append, SourceFile.byteLength_append,
      feed]
    omega
  rw [stop]
  exact slice_of_split known split.source

/-- Between the end of a line and the start of the next one stands its line feed, with the
carriage return in front of it if there is one. -/
theorem slice_terminator (more : index + 1 < file.lines.length) :
    store.sources.slice id
        ((byteLength (file.front index) + byteLength (shownPart line) : Nat) : Number)
        (byteLength (file.front (index + 1)) : Number) =
      some (String.ofList (returnPart line ++ ['\n'])) := by
  obtain ⟨after, parts, feed⟩ := SourceFile.parts_at_line found
  obtain ⟨rest, rfl⟩ := feed more
  have source : file.source.toList =
      (file.front index ++ shownPart line) ++ (returnPart line ++ ['\n']) ++ rest := by
    rw [parts]
    simp only [List.append_assoc, List.singleton_append]
  have next : byteLength (file.front (index + 1)) =
      byteLength (file.front index ++ shownPart line) + byteLength (returnPart line ++ ['\n']) := by
    rw [SourceFile.front_succ found, ← SourceFile.byteLength_append, ← List.append_assoc,
      ← List.append_assoc, List.append_assoc (file.front index) (shownPart line),
      SourceFile.shownPart_append_returnPart, List.append_assoc]
  rw [next, ← SourceFile.byteLength_append (file.front index)]
  exact slice_of_split known source

theorem terminator_of_line (more : index + 1 < file.lines.length) :
    store.sources.terminator id (index + 1) = String.ofList (returnPart line ++ ['\n']) := by
  have next := SourceFile.lineRange_of_line (List.getElem?_eq_getElem more)
  rw [Sources.terminator, lineRange_natCast known, lineRange_natCast known,
    SourceFile.lineRange_of_line found, next]
  exact congrArg (Option.getD · "") (slice_terminator known found more)

theorem terminator_of_last_line (last : file.lines.length = index + 1) :
    store.sources.terminator id (index + 1) = "" := by
  have beyond : file.lineRange (index + 1 + 1) = none := by
    rw [SourceFile.lineRange, List.getElem?_eq_none_iff.mpr (Nat.le_of_eq last), Option.map_none]
  rw [Sources.terminator, lineRange_natCast known, lineRange_natCast known,
    SourceFile.lineRange_of_line found, beyond]

theorem ended_of_line (more : index + 1 < file.lines.length) :
    store.sources.ended id (index + 1) = line ++ ['\n'] := by
  rw [Sources.ended, line_of_line known found, terminator_of_line known found more,
    String.toList_ofList, String.toList_ofList, ← List.append_assoc,
    SourceFile.shownPart_append_returnPart]

theorem ended_of_last_line (last : file.lines.length = index + 1) :
    store.sources.ended id (index + 1) = shownPart line := by
  rw [Sources.ended, line_of_line known found, terminator_of_last_line known found last,
    String.toList_ofList]
  exact List.append_nil _

omit found

/-- The lines in front of a line, each with what ends it, are the text in front of it. -/
theorem flatMap_ended {index : Nat} (inside : index < file.lines.length) :
    (List.range' 1 index).flatMap (store.sources.ended id) = file.front index := by
  induction index with
  | zero => rfl
  | succ index ih =>
    have found := List.getElem?_eq_getElem (Nat.lt_of_succ_lt inside)
    have own := ended_of_line known found inside
    rw [List.range'_1_concat, List.flatMap_append, ih (Nat.lt_of_succ_lt inside),
      SourceFile.front_succ found, List.flatMap_singleton, Nat.add_comm 1 index, own]

theorem lineRange_ne_none_iff (line : Number) :
    store.sources.lineRange id line ≠ none ↔
      ∃ n : Nat, line = (n : Number) ∧ 1 ≤ n ∧ n ≤ 1 + file.source.toList.count '\n' := by
  constructor
  · intro ranged
    obtain ⟨range, eq⟩ := Option.ne_none_iff_exists'.mp ranged
    rw [sources_lineRange, known, Option.bind_some] at eq
    obtain ⟨n, whole, own⟩ := Option.bind_eq_some_iff.mp eq
    have inside := mt SourceFile.lineRange_eq_none_iff.mpr (Option.ne_none_iff_exists'.mpr ⟨_, own⟩)
    exact ⟨n, Number.toNat?_eq_some_iff.mp whole, not_not.mp inside⟩
  · rintro ⟨n, rfl, inside⟩
    rw [lineRange_natCast known]
    exact mt SourceFile.lineRange_eq_none_iff.mp (not_not.mpr inside)

/-- The bytes of the last line end where the text does, or in front of the carriage return
that the text ends in. -/
theorem stop_of_last_line (last : file.lines.length = index + 1) :
    ∃ range, store.sources.lineRange id ((index + 1 : Nat) : Number) = some range ∧
      range.stop + terminatorPart file.source.toList = file.byteCount := by
  have found := List.getElem?_eq_getElem (show index < file.lines.length by omega)
  refine ⟨_, (lineRange_natCast known _).trans (SourceFile.lineRange_of_line found), ?_⟩
  have ending := congrArg byteLength (SourceFile.returnPart_last_line found last)
  have whole := congrArg byteLength (SourceFile.source_of_last_line found last)
  have parts := SourceFile.byteLength_shownPart file.lines[index]
  rw [SourceFile.byteLength_returnPart, SourceFile.byteLength_returnPart] at ending
  rw [SourceFile.byteLength_append] at whole
  show byteLength (file.front index) + byteLength (shownPart file.lines[index]) + _ =
    byteLength file.source.toList
  omega

/-- All lines, each with what ends it, are the text but for a carriage return at its end. -/
theorem flatMap_ended_all (last : file.lines.length = index + 1) :
    (List.range' 1 (index + 1)).flatMap (store.sources.ended id) ++
      returnPart file.source.toList = file.source.toList := by
  have inside : index < file.lines.length := by omega
  have found := List.getElem?_eq_getElem inside
  have own := ended_of_last_line known found last
  rw [List.range'_1_concat, List.flatMap_append, flatMap_ended known inside,
    List.flatMap_singleton, Nat.add_comm 1 index, own,
    ← SourceFile.returnPart_last_line found last, List.append_assoc,
    SourceFile.shownPart_append_returnPart]
  exact (SourceFile.source_of_last_line found last).symm

end Store

/-- Lines and terminators are the text of a file. The lines are as many as the line feeds
and one more. What is between a line and the next one is a line feed, with the carriage
return in front of it if there is one; the last line reaches to the end of the text, but
not over a carriage return that the text ends in. So this is all that is missing when the
lines are put together with what ends them. -/
theorem lines_rebuild_source {store : Store} {id : Number} {file : SourceFile}
    (known : store.file? id = some file) :
    let last := 1 + file.source.toList.count '\n'
    (∀ line : Number, store.sources.lineRange id line ≠ none ↔
      ∃ n : Nat, line = (n : Number) ∧ 1 ≤ n ∧ n ≤ last) ∧
    (∀ n, 1 ≤ n → n < last → ∃ here next whole,
      store.sources.lineRange id (n : Number) = some here ∧
      store.sources.lineRange id ((n + 1 : Nat) : Number) = some next ∧
      store.sources.slice id here.start ((next.start - 1 : Nat) : Number) = some whole ∧
      store.sources.slice id here.stop next.start = some (store.sources.terminator id n) ∧
      store.sources.terminator id n =
        if whole.toList.getLast? = some '\r' then "\r\n" else "\n") ∧
    (∃ range, store.sources.lineRange id (last : Number) = some range ∧
      range.stop + SourceFile.terminatorPart file.source.toList = file.byteCount) ∧
    (List.range' 1 last).flatMap (store.sources.ended id) ++
      SourceFile.returnPart file.source.toList = file.source.toList := by
  intro last
  have length := file.length_lines
  have final : file.source.toList.count '\n' + 1 = last := Nat.add_comm _ 1
  refine ⟨Store.lineRange_ne_none_iff known, ?_, ?_, ?_⟩
  · intro n pos more
    obtain ⟨index, rfl⟩ : ∃ index, n = index + 1 := ⟨n - 1, by omega⟩
    have inside : index + 1 < file.lines.length := by omega
    have found := List.getElem?_eq_getElem (Nat.lt_of_succ_lt inside)
    have next := List.getElem?_eq_getElem inside
    refine ⟨_, _, String.ofList file.lines[index],
      (Store.lineRange_natCast known _).trans (SourceFile.lineRange_of_line found),
      (Store.lineRange_natCast known _).trans (SourceFile.lineRange_of_line next), ?_, ?_, ?_⟩
    · exact Store.slice_line known found
    · rw [Store.terminator_of_line known found inside]
      exact Store.slice_terminator known found inside
    · rw [Store.terminator_of_line known found inside, String.toList_ofList]
      unfold SourceFile.returnPart
      split <;> rfl
  · have reached := Store.stop_of_last_line known length
    rwa [final] at reached
  · have whole := Store.flatMap_ended_all known length
    rwa [final] at whole

/-! ## Carriage returns -/

namespace Sample

/-- Two carriage returns in front of a line feed, a lone line feed, and a carriage return
at the end. -/
def returns : Store := .ofList [("f", "a\r\r\n\nb\r")]

theorem returns_file : returns.file? (0 : Nat) = some (.ofText "f" "a\r\r\n\nb\r") := rfl

/-- A carriage return without a line feed. -/
def unfinished : Store := .ofList [("f", "a\r")]

end Sample

theorem lines_rebuild_source_sample :
    Sample.returns.file? (0 : Nat) = some (.ofText "f" "a\r\r\n\nb\r") ∧
      (∃ range, Sample.returns.sources.lineRange (0 : Nat) (3 : Nat) = some range ∧
        range.stop + 1 = 7) ∧
      (List.range' 1 3).flatMap (Sample.returns.sources.ended (0 : Nat)) ++ ['\r'] =
        "a\r\r\n\nb\r".toList := by
  obtain ⟨_, _, last, whole⟩ := lines_rebuild_source Sample.returns_file
  exact ⟨Sample.returns_file, last, whole⟩

/-- The carriage return that a text ends in is on no line, and no terminator has it. -/
theorem last_return_left_out :
    Sample.unfinished.file? (0 : Nat) = some (.ofText "f" "a\r") ∧
      Sample.unfinished.sources.lineRange (0 : Nat) (1 : Nat) = some ⟨0, 1⟩ ∧
      SourceFile.byteCount (.ofText "f" "a\r") = 2 ∧
      (List.range' 1 1).flatMap (Sample.unfinished.sources.ended (0 : Nat)) = ['a'] := by
  refine ⟨rfl, ?_, rfl, ?_⟩
  · decide +kernel
  · decide +kernel

end Excerpt
