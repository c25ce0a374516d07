import Excerpt.Proofs.Number.Order
import Excerpt.Proofs.Resolution
import Excerpt.Proofs.Source.Table
import Excerpt.Proofs.Text.Columns

/-! Where the labels of a diagnostic are in the files of a store. An offset on a
line is at the column behind the text before it, and no label ends on a line
before the one it starts on. -/
namespace Excerpt

open SourceFile (byteLength LineSplit)

namespace Store

theorem sliceEnds?_natCast {byteCount start stop : Nat} (ordered : start ≤ stop)
    (inside : stop ≤ byteCount) :
    sliceEnds? byteCount (start : Number) (stop : Number) = some (start, stop) := by
  have zero := Number.less_natCast start 0
  rw [sliceEnds?, zero, Number.less_natCast, Number.less_natCast, if_neg (by simp; omega)]
  simp

/-- A line of a file in a store: what comes before it, its text, and what comes
after it. -/
structure HasLine (store : Store) (id : Number) (line : Nat) (before text : List Char) : Prop where
  split : ∃ file after, store.file? id = some file ∧ LineSplit file line before text after
  range : store.sources.lineRange id (line : Number) =
    some ⟨byteLength before, byteLength before + byteLength text⟩

theorem hasLine_of_lineRange {store : Store} {id : Number} {line : Nat} {range : ByteRange}
    (h : store.sources.lineRange id (line : Number) = some range) :
    ∃ before text, store.HasLine id line before text ∧
      range = ⟨byteLength before, byteLength before + byteLength text⟩ := by
  have found := h
  rw [sources_lineRange] at found
  obtain ⟨file, known, found⟩ := Option.bind_eq_some_iff.mp found
  rw [Number.toNat?_natCast, Option.bind_some] at found
  obtain ⟨before, text, after, split, rfl⟩ := SourceFile.split_of_lineRange found
  exact ⟨before, text, ⟨⟨file, after, known, split⟩, h⟩, rfl⟩

namespace HasLine

variable {store : Store} {id : Number} {line : Nat} {before text front part : List Char}

theorem slice (h : store.HasLine id line before text) (hf : front ++ part <+: text) :
    store.sources.slice id ((byteLength before + byteLength front : Nat) : Number)
        ((byteLength before + byteLength front + byteLength part : Nat) : Number) =
      some (String.ofList part) := by
  obtain ⟨file, after, known, split⟩ := h.split
  have inside : byteLength before + byteLength front + byteLength part ≤ file.byteCount := by
    obtain ⟨rest, rfl⟩ := hf
    rw [SourceFile.byteCount, split.source]
    simp only [SourceFile.byteLength_append]
    omega
  rw [sources_slice, known, Option.bind_some, sliceEnds?_natCast (Nat.le_add_right _ _) inside,
    Option.map_some]
  exact congrArg some (split.slice hf)

theorem line_eq (h : store.HasLine id line before text) :
    store.sources.line id (line : Number) = String.ofList text := by
  have all : [] ++ text <+: text := List.prefix_rfl
  have whole := h.slice all
  rw [Sources.line, h.range]
  exact congrArg (Option.getD · "") whole

theorem position (h : store.HasLine id line before text) {front : List Char}
    (hf : front <+: text) {span : Span} (own : span.file = id) (config : Config) :
    span.position store.sources config ((byteLength before + byteLength front : Nat) : Number) =
      .ok ⟨line, 1 + Columns.width config.tabWidth (String.ofList front)⟩ := by
  obtain ⟨file, after, known, split⟩ := h.split
  subst own
  refine Span.position_eq_ok_iff.mpr
    ⟨⟨line, byteLength front⟩, _, String.ofList front, ?_, h.range, ?_, rfl⟩
  · rw [sources_location, known, Option.bind_some, Number.toNat?_natCast, Option.bind_some,
      split.location hf]
  · have own : [] ++ front <+: text := hf
    have found := h.slice own
    exact found

/-- An offset between the ends of a line that has a position is behind a front of
the text of the line. -/
theorem front_of_position (h : store.HasLine id line before text) {span : Span}
    (own : span.file = id) {config : Config} {offset : Nat} {p : Position Nat}
    (found : span.position store.sources config (offset : Number) = .ok p)
    (from_start : byteLength before ≤ offset)
    (to_stop : offset ≤ byteLength before + byteLength text) :
    ∃ front, front <+: text ∧ offset = byteLength before + byteLength front := by
  obtain ⟨file, after, known, split⟩ := h.split
  obtain ⟨location, _, _, at_offset, _⟩ := Span.position_eq_ok_iff.mp found
  rw [sources_location, own, known, Option.bind_some, Number.toNat?_natCast,
    Option.bind_some] at at_offset
  exact split.front_of_location at_offset from_start to_stop

/-- A label on some bytes of a line is on the columns of their characters. -/
theorem resolve (h : store.HasLine id line before text) {config : Config} {label : Label}
    {order start stop : Nat} {l : ResolvedLabel Nat}
    (resolved : label.resolve store.sources config order = .ok l)
    (span : label.span = ⟨id, start, stop⟩) (from_start : byteLength before ≤ start)
    (wide : start < stop) (to_stop : stop ≤ byteLength before + byteLength text) :
    ∃ front part, front ++ part <+: text ∧ part ≠ [] ∧
      start = byteLength before + byteLength front ∧
      stop = byteLength before + byteLength front + byteLength part ∧
      l = ⟨label.style, label.message.filter (· != ""), id,
        ⟨line, 1 + Columns.width config.tabWidth (String.ofList front)⟩,
        ⟨line, 1 + Columns.width config.tabWidth (String.ofList (front ++ part))⟩, order⟩ := by
  have own : label.span.file = id := congrArg Span.file span
  obtain ⟨first, last, ends, rfl⟩ := Label.resolve_eq_ok_iff.mp resolved
  obtain ⟨_, _, at_start, at_stop⟩ := Span.resolve_eq_ok_iff.mp ends
  rw [congrArg Span.start span] at at_start
  rw [congrArg Span.stop span] at at_stop
  obtain ⟨front, hf, rfl⟩ := h.front_of_position own at_start from_start (by omega)
  obtain ⟨whole, hw, rfl⟩ := h.front_of_position own at_stop (by omega) to_stop
  obtain ⟨part, rfl⟩ := SourceFile.prefix_of_byteLength_le hf hw (by omega)
  have filled : part ≠ [] := by
    rintro rfl
    rw [List.append_nil] at wide
    omega
  refine ⟨front, part, hw, filled, rfl, ?_, ?_⟩
  · rw [SourceFile.byteLength_append, Nat.add_assoc]
  · rw [h.position hf own] at at_start
    rw [h.position hw own] at at_stop
    cases at_start
    cases at_stop
    rw [own, Nat.cast_id]

end HasLine

/-- In a store a label does not end before it starts. -/
theorem line_le_of_resolveLabels {store : Store} {config : Config} {d : Diagnostic}
    {labels : List (ResolvedLabel Nat)} (h : d.resolveLabels store.sources config = .ok labels) :
    ∀ l ∈ labels, l.start.line ≤ l.stop.line := by
  intro l hl
  obtain ⟨order, found⟩ := List.mem_iff_getElem?.mp hl
  obtain ⟨label, _, resolved⟩ := (Diagnostic.resolveLabels_getElem? h order l).mp found
  obtain ⟨_, _, ends, rfl⟩ := Label.resolve_eq_ok_iff.mp resolved
  obtain ⟨_, ordered, first, last⟩ := Span.resolve_eq_ok_iff.mp ends
  obtain ⟨start, _, _, at_start, _, _, rfl⟩ := Span.position_eq_ok_iff.mp first
  obtain ⟨stop, _, _, at_stop, _, _, rfl⟩ := Span.position_eq_ok_iff.mp last
  rw [sources_location] at at_start at_stop
  obtain ⟨file, known, at_start⟩ := Option.bind_eq_some_iff.mp at_start
  rw [known, Option.bind_some] at at_stop
  obtain ⟨a, offset_start, at_start⟩ := Option.bind_eq_some_iff.mp at_start
  obtain ⟨b, offset_stop, at_stop⟩ := Option.bind_eq_some_iff.mp at_stop
  rw [Number.toNat?_eq_some_iff.mp offset_start, Number.toNat?_eq_some_iff.mp offset_stop,
    Number.less_natCast, decide_eq_false_iff_not, Nat.not_lt] at ordered
  obtain ⟨before, front, rfl, rfl⟩ := SourceFile.locate_eq_some_iff.mp at_start
  obtain ⟨whole, longer, rfl, rfl⟩ := SourceFile.locate_eq_some_iff.mp at_stop
  -- The text before the start is the front of the text before the end.
  obtain ⟨rest, rfl⟩ := SourceFile.prefix_of_byteLength_le front longer ordered
  rw [List.foldl_append]
  exact ByteLocation.line_le_foldl _ rest

end Store

/-! ## Behind a front of a text -/

namespace Store

variable {store : Store} {id : Number} {file : SourceFile}

theorem name_eq_none_iff : store.sources.name id = none ↔ store.file? id = none :=
  Option.map_eq_none_iff

theorem location_eq_none_iff (known : store.file? id = some file) {offset : Number} :
    store.sources.location id offset = none ↔ ¬file.HasBoundary offset := by
  rw [sources_location, known, Option.bind_some, SourceFile.location_eq_none_iff]

variable {before : List Char} (known : store.file? id = some file)
  (hf : before <+: file.source.toList)

include known hf

theorem location_of_front :
    store.sources.location id (byteLength before : Number) =
      some ⟨1 + before.count '\n', byteLength (lastLine before)⟩ := by
  rw [sources_location, known, Option.bind_some, Number.toNat?_natCast, Option.bind_some,
    ← ByteLocation.foldl_next]
  exact SourceFile.locate_eq_some_iff.mpr ⟨before, hf, rfl, rfl⟩

/-- The text between the start of a line and the end of a front is its last line, also
where the front ends behind the carriage return of a terminator. -/
theorem lastLine_of_front :
    ∃ range, store.sources.lineRange id ((1 + before.count '\n' : Nat) : Number) = some range ∧
      store.sources.slice id range.start
        ((range.start + byteLength (lastLine before) : Nat) : Number) =
        some (String.ofList (lastLine before)) := by
  obtain ⟨range, ranged⟩ := SourceFile.exists_lineRange hf
  obtain ⟨start, text, after, split, rfl⟩ := SourceFile.split_of_lineRange ranged
  have whole := split.front_eq hf
  obtain ⟨rest, source⟩ := hf
  have cut : file.source.toList = start ++ lastLine before ++ rest := by rw [← whole, source]
  have inside : byteLength start + byteLength (lastLine before) ≤ file.byteCount := by
    rw [SourceFile.byteCount, cut]
    simp only [SourceFile.byteLength_append]
    omega
  refine ⟨⟨byteLength start, byteLength start + byteLength text⟩, ?_, ?_⟩
  · rw [sources_lineRange, known, Option.bind_some, Number.toNat?_natCast, Option.bind_some, ranged]
  · rw [sources_slice, known, Option.bind_some, sliceEnds?_natCast (Nat.le_add_right _ _) inside,
      Option.map_some]
    exact congrArg some (SourceFile.slice_of_split cut)

end Store

section

variable {α : Type} [Add α] [Sub α] [Mod α] [OfNat α 0] [OfNat α 1] [NatCast α]

/-- The position behind some text from the start of a file. -/
def Position.behind (tabWidth : α) (before : List Char) : Position α :=
  ⟨((1 + before.count '\n' : Nat) : α),
    1 + Columns.width tabWidth (String.ofList (lastLine before))⟩

namespace Span

variable {store : Store} {config : Config} {span : Span} {file : SourceFile}

theorem position_of_front (known : store.file? span.file = some file) {before : List Char}
    (hf : before <+: file.source.toList) :
    (span.position store.sources config (byteLength before : Number) :
        Except SpanError (Position α)) = .ok (Position.behind (config.tabWidth : α) before) := by
  obtain ⟨range, ranged, text⟩ := Store.lastLine_of_front known hf
  unfold position
  rw [Store.location_of_front known hf]
  dsimp only
  rw [ranged, Option.bind_some, text]
  rfl

theorem position_of_not_boundary (known : store.file? span.file = some file) {offset : Number}
    (cut : ¬file.HasBoundary offset) :
    (span.position store.sources config offset : Except SpanError (Position α)) =
      .error ⟨span, .badOffset offset⟩ := by
  unfold position
  rw [(Store.location_eq_none_iff known).mpr cut]

end Span

end

namespace Position

/-- Positions in reading order. -/
def Before {α : Type} [LT α] (a b : Position α) : Prop :=
  a.line < b.line ∨ a.line = b.line ∧ a.column < b.column

end Position

/-! ## Two labels that cross -/

namespace Sample

def store : Store := .ofList [("f", "a\tb\nc\nd")]

/-- A label on the tab and the `b` behind it. -/
def part : Label := ⟨.primary, ⟨(0 : Nat), (1 : Nat), (3 : Nat)⟩, some "x"⟩

/-- A label on all three lines. -/
def whole : Label := ⟨.secondary, ⟨(0 : Nat), (0 : Nat), (7 : Nat)⟩, some "y\nz"⟩

def diagnostic : Diagnostic := ⟨.error, none, "m", [part, whole], []⟩

def partFound : ResolvedLabel Nat := ⟨.primary, some "x", (0 : Nat), ⟨1, 2⟩, ⟨1, 6⟩, 0⟩

def wholeFound : ResolvedLabel Nat := ⟨.secondary, some "y\nz", (0 : Nat), ⟨1, 1⟩, ⟨3, 2⟩, 1⟩

theorem file_zero : store.file? (0 : Nat) = some (.ofText "f" "a\tb\nc\nd") := rfl

theorem named : store.sources.name (0 : Nat) ≠ none := by
  show (store.file? (0 : Nat)).map SourceFile.name ≠ none
  rw [file_zero]
  exact Option.some_ne_none _

theorem line_one : store.HasLine (0 : Nat) 1 [] "a\tb".toList where
  split := ⟨_, "\nc\nd".toList, file_zero, rfl, by decide, rfl⟩
  range := by
    rw [Store.sources_lineRange, file_zero, Option.bind_some, Number.toNat?_natCast]
    rfl

theorem line_three : store.HasLine (0 : Nat) 3 "a\tb\nc\n".toList "d".toList where
  split := ⟨_, [], file_zero, rfl, by decide, rfl⟩
  range := by
    rw [Store.sources_lineRange, file_zero, Option.bind_some, Number.toNat?_natCast]
    rfl

theorem resolve_part : part.resolve store.sources .standard 0 = .ok partFound := by
  have start : "a".toList <+: "a\tb".toList := by decide
  have stop : "a\tb".toList <+: "a\tb".toList := by decide
  exact Label.resolve_eq_ok_iff.mpr ⟨⟨1, 2⟩, ⟨1, 6⟩, Span.resolve_eq_ok_iff.mpr ⟨named,
    Number.less_natCast 3 1, line_one.position start rfl .standard,
    line_one.position stop rfl .standard⟩, rfl⟩

theorem resolve_whole : whole.resolve store.sources .standard 1 = .ok wholeFound := by
  have start : [] <+: "a\tb".toList := by decide
  have stop : "d".toList <+: "d".toList := by decide
  exact Label.resolve_eq_ok_iff.mpr ⟨⟨1, 1⟩, ⟨3, 2⟩, Span.resolve_eq_ok_iff.mpr ⟨named,
    Number.less_natCast 7 0, line_one.position start rfl .standard,
    line_three.position stop rfl .standard⟩, rfl⟩

theorem resolved :
    diagnostic.resolveLabels store.sources .standard = .ok [partFound, wholeFound] := by
  have labels : diagnostic.labels.zipIdx = [(part, 0), (whole, 1)] := rfl
  rw [Diagnostic.resolveLabels, labels]
  simp only [List.mapM_cons, resolve_part, resolve_whole]
  rfl

end Sample
end Excerpt
