import Excerpt.Proofs.Number.Exact
import Excerpt.Proofs.Source.Position

/-! Spans are accepted exactly when they fit their file. A store refuses every other
span for the first reason that applies, and positions keep the order of offsets as long
as their columns are so small that they are not rounded. -/
namespace Excerpt

open SourceFile (byteLength)

namespace Position

theorem behind_before {tabWidth : Nat} (pos : 0 < tabWidth) {before whole : List Char}
    (h : before <+: whole) (longer : byteLength before < byteLength whole) :
    (behind tabWidth before : Position Nat).Before (behind tabWidth whole) := by
  obtain ⟨rest, rfl⟩ := h
  have line (text : List Char) : (behind tabWidth text).line = 1 + text.count '\n' := rfl
  have column (text : List Char) : (behind tabWidth text).column =
      1 + Columns.width tabWidth (String.ofList (lastLine text)) := rfl
  rw [Before, line, line, column, column, List.count_append]
  by_cases feed : '\n' ∈ rest
  · have later := List.count_pos_iff.mpr feed
    exact .inl (by omega)
  · have filled : (String.ofList rest).toList ≠ [] := by
      rw [String.toList_ofList]
      rintro rfl
      rw [List.append_nil] at longer
      exact Nat.lt_irrefl _ longer
    have grows := Columns.width_lt_append pos (String.ofList (lastLine before)) filled
    rw [lastLine_append feed, String.ofList_append, List.count_eq_zero_of_not_mem feed]
    exact .inr ⟨rfl, Nat.add_lt_add_left grows 1⟩

/-- Positions that are not rounded are those of exact arithmetic. -/
theorem behind_natCast {tabWidth : Nat} (pos : 0 < tabWidth) {before : List Char}
    (h : (behind tabWidth before).column ≤ Number.exactLimit) :
    behind (tabWidth : Number) before =
      ⟨((behind tabWidth before).line : Number), ((behind tabWidth before).column : Number)⟩ := by
  have column : (behind tabWidth before).column =
      1 + Columns.width tabWidth (String.ofList (lastLine before)) := rfl
  rw [column] at h ⊢
  have small : Columns.width tabWidth (String.ofList (lastLine before)) ≤ Number.exactLimit := by
    omega
  rw [behind, Columns.width_natCast pos small]
  exact congrArg _ (Number.add_natCast h)

/-- Rounding keeps the order of positions on different lines, and of positions on one
line if the later one is not rounded. -/
theorem behind_before_of_small {tabWidth : Nat} (pos : 0 < tabWidth) {before whole : List Char}
    (h : before <+: whole) (longer : byteLength before < byteLength whole)
    (small : before.count '\n' < whole.count '\n' ∨
      (behind tabWidth whole).column ≤ Number.exactLimit) :
    (behind (tabWidth : Number) before).Before (behind (tabWidth : Number) whole) := by
  have natCast_lt {a b : Nat} (h : a < b) : (a : Number) < (b : Number) := by
    show (a : Number).less (b : Number) = true
    rw [Number.less_natCast, decide_eq_true h]
  rcases behind_before pos h longer with line | ⟨same, column⟩
  · exact .inl (natCast_lt line)
  · have lines : before.count '\n' = whole.count '\n' := Nat.add_left_cancel same
    have last : (behind tabWidth whole).column ≤ Number.exactLimit :=
      small.resolve_left (by omega)
    rw [behind_natCast pos (Nat.le_trans (Nat.le_of_lt column) last), behind_natCast pos last]
    exact .inr ⟨congrArg Nat.cast same, natCast_lt column⟩

end Position

namespace Span

/-- The first reason why a span does not fit a file of a store. -/
inductive Refused (store : Store) (span : Span) : SpanFault → Prop
  | unknownFile (unknown : store.file? span.file = none) : Refused store span .unknownFile
  | reversed {file : SourceFile} (known : store.file? span.file = some file)
      (reversed : span.stop.less span.start = true) : Refused store span .reversed
  | badStart {file : SourceFile} (known : store.file? span.file = some file)
      (ordered : span.stop.less span.start = false) (bad : ¬file.HasBoundary span.start) :
      Refused store span (.badOffset span.start)
  | badStop {file : SourceFile} (known : store.file? span.file = some file)
      (ordered : span.stop.less span.start = false) (good : file.HasBoundary span.start)
      (bad : ¬file.HasBoundary span.stop) : Refused store span (.badOffset span.stop)

/-- What a span on two fronts of a file is resolved to. -/
structure Fits (store : Store) (span : Span) (before whole : List Char) : Prop where
  known : ∃ file, store.file? span.file = some file ∧ before <+: file.source.toList ∧
    whole <+: file.source.toList
  start : span.start = (byteLength before : Number)
  stop : span.stop = (byteLength whole : Number)
  ordered : byteLength before ≤ byteLength whole

section

variable {α : Type} [Add α] [Sub α] [Mod α] [OfNat α 0] [OfNat α 1] [NatCast α]
  {store : Store} {config : Config} {span : Span}

theorem resolve_of_fits {before whole : List Char} (h : span.Fits store before whole) :
    (span.resolve store.sources config : Except SpanError (Position α × Position α)) =
      .ok (Position.behind (config.tabWidth : α) before,
        Position.behind (config.tabWidth : α) whole) := by
  obtain ⟨⟨file, known, hb, hw⟩, start, stop, ordered⟩ := h
  have named : store.sources.name span.file ≠ none := by simp [Store.name_eq_none_iff, known]
  have in_order : span.stop.less span.start = false := by
    rw [start, stop, Number.less_natCast, decide_eq_false_iff_not]
    omega
  have first : (span.position store.sources config span.start : Except SpanError (Position α)) =
      .ok (Position.behind (config.tabWidth : α) before) := by
    rw [start]
    exact position_of_front known hb
  have last : (span.position store.sources config span.stop : Except SpanError (Position α)) =
      .ok (Position.behind (config.tabWidth : α) whole) := by
    rw [stop]
    exact position_of_front known hw
  unfold resolve
  simp only [named, if_false, in_order, Bool.false_eq_true, first, last]
  rfl

theorem resolve_of_refused {fault : SpanFault} (h : span.Refused store fault) :
    (span.resolve store.sources config : Except SpanError (Position α × Position α)) =
      .error ⟨span, fault⟩ := by
  have named {file : SourceFile} (known : store.file? span.file = some file) :
      store.sources.name span.file ≠ none := by
    simp [Store.name_eq_none_iff, known]
  unfold resolve
  cases h with
  | unknownFile unknown =>
    rw [if_pos (Store.name_eq_none_iff.mpr unknown)]
    rfl
  | reversed known reversed =>
    rw [if_neg (named known), if_pos reversed]
    rfl
  | badStart known ordered bad =>
    have first : (span.position store.sources config span.start : Except SpanError (Position α)) =
        .error ⟨span, .badOffset span.start⟩ := position_of_not_boundary known bad
    simp only [named known, if_false, ordered, Bool.false_eq_true, first]
    rfl
  | badStop known ordered good bad =>
    obtain ⟨before, hb, start⟩ := good
    have first : (span.position store.sources config span.start : Except SpanError (Position α)) =
        .ok (Position.behind (config.tabWidth : α) before) := by
      rw [start]
      exact position_of_front known hb
    have last : (span.position store.sources config span.stop : Except SpanError (Position α)) =
        .error ⟨span, .badOffset span.stop⟩ := position_of_not_boundary known bad
    simp only [named known, if_false, ordered, Bool.false_eq_true, first, last]
    rfl

theorem fits_or_refused (store : Store) (span : Span) :
    (∃ before whole, span.Fits store before whole) ∨ ∃ fault, span.Refused store fault := by
  cases known : store.file? span.file with
  | none => exact .inr ⟨_, .unknownFile known⟩
  | some file =>
    cases ordered : span.stop.less span.start with
    | true => exact .inr ⟨_, .reversed known ordered⟩
    | false =>
      by_cases start : file.HasBoundary span.start
      · by_cases stop : file.HasBoundary span.stop
        · obtain ⟨before, hb, start⟩ := start
          obtain ⟨whole, hw, stop⟩ := stop
          rw [start, stop, Number.less_natCast, decide_eq_false_iff_not] at ordered
          exact .inl ⟨before, whole, ⟨file, known, hb, hw⟩, start, stop, by omega⟩
        · exact .inr ⟨_, .badStop known ordered start stop⟩
      · exact .inr ⟨_, .badStart known ordered start⟩

theorem resolve_eq_ok_iff_fits {start stop : Position α} :
    span.resolve store.sources config = .ok (start, stop) ↔
      ∃ before whole, span.Fits store before whole ∧
        start = Position.behind (config.tabWidth : α) before ∧
        stop = Position.behind (config.tabWidth : α) whole := by
  constructor
  · intro h
    rcases fits_or_refused store span with ⟨before, whole, fits⟩ | ⟨fault, refused⟩
    · rw [resolve_of_fits fits] at h
      cases h
      exact ⟨before, whole, fits, rfl, rfl⟩
    · rw [resolve_of_refused refused] at h
      cases h
  · rintro ⟨before, whole, fits, rfl, rfl⟩
    exact resolve_of_fits fits

theorem resolve_eq_error_iff {error : SpanError} :
    (span.resolve store.sources config : Except SpanError (Position α × Position α)) =
        .error error ↔
      error.span = span ∧ span.Refused store error.fault := by
  constructor
  · intro h
    rcases fits_or_refused store span with ⟨before, whole, fits⟩ | ⟨fault, refused⟩
    · rw [resolve_of_fits fits] at h
      cases h
    · rw [resolve_of_refused refused] at h
      cases h
      exact ⟨rfl, refused⟩
  · rintro ⟨own, refused⟩
    rw [resolve_of_refused refused, ← own]

end

end Span

/-- Spans are accepted exactly when they fit their file. A span on two fronts of the text
of a known file, in order, is resolved to the positions behind them; every other span is
refused for the first reason that applies, and no line of the file is missing. Behind a
longer front is a later position: always in exact arithmetic, and in binary64 if it is on
a later line or its column is not beyond the greatest exact number. -/
theorem spans_resolved_exactly (store : Store) (config : Config) (span : Span) :
    (∀ start stop : Position Number, span.resolve store.sources config = .ok (start, stop) ↔
      ∃ before whole, span.Fits store before whole ∧
        start = Position.behind (config.tabWidth : Number) before ∧
        stop = Position.behind (config.tabWidth : Number) whole) ∧
    (∀ error, (span.resolve store.sources config :
        Except SpanError (Position Number × Position Number)) = .error error ↔
      error.span = span ∧ span.Refused store error.fault) ∧
    (∀ line, ¬span.Refused store (.missingLine line)) ∧
    ∀ file, store.file? span.file = some file → ∀ before whole, before <+: file.source.toList →
      whole <+: file.source.toList → byteLength before < byteLength whole →
      (Position.behind config.tabWidth before).Before (Position.behind config.tabWidth whole) ∧
      (before.count '\n' < whole.count '\n' ∨
          (Position.behind config.tabWidth whole).column ≤ Number.exactLimit →
        ∃ first last : Position Number,
          span.position store.sources config (byteLength before : Number) = .ok first ∧
          span.position store.sources config (byteLength whole : Number) = .ok last ∧
          first.Before last) := by
  refine ⟨fun start stop => Span.resolve_eq_ok_iff_fits, fun error => Span.resolve_eq_error_iff,
    ?_, ?_⟩
  · intro line refused
    cases refused
  · intro file known before whole hb hw longer
    have inside := SourceFile.prefix_of_byteLength_le hb hw (Nat.le_of_lt longer)
    refine ⟨Position.behind_before config.tabWidth_pos inside longer, ?_⟩
    intro small
    exact ⟨_, _, Span.position_of_front known hb, Span.position_of_front known hw,
      Position.behind_before_of_small config.tabWidth_pos inside longer small⟩

/-! ## Two files -/

namespace Sample

/-- A long character, a line end of two characters, and a tab. -/
def mixed : Store := .ofList [("f", "é\r\n\tx")]

/-- From the middle of the line end to behind the tab. -/
def across : Span := ⟨(0 : Nat), (3 : Nat), (5 : Nat)⟩

theorem mixed_file : mixed.file? (0 : Nat) = some (.ofText "f" "é\r\n\tx") := rfl

theorem across_fits : across.Fits mixed "é\r".toList "é\r\n\t".toList where
  known := ⟨_, mixed_file, by decide, by decide⟩
  start := rfl
  stop := rfl
  ordered := by decide

def tabbed : Store := .ofList [("f", "\ta")]

/-- The character behind the tab. -/
def behindTab : Span := ⟨(0 : Nat), (1 : Nat), (2 : Nat)⟩

def wide : Config where
  tabWidth := 9007199254740992
  linesBefore := 0
  linesAfter := 0
  elisionThreshold := 3

theorem behindTab_fits : behindTab.Fits tabbed "\t".toList "\ta".toList where
  known := ⟨_, rfl, by decide, by decide⟩
  start := rfl
  stop := rfl
  ordered := by decide

end Sample

theorem spans_resolved_exactly_sample :
    Sample.across.resolve Sample.mixed.sources .standard =
        .ok ((⟨(1 : Nat), (3 : Nat)⟩, ⟨(2 : Nat), (5 : Nat)⟩) : Position Number × Position Number) ∧
      ∃ first last : Position Number,
        Sample.across.position Sample.mixed.sources .standard (3 : Nat) = .ok first ∧
        Sample.across.position Sample.mixed.sources .standard (5 : Nat) = .ok last ∧
        first.Before last := by
  obtain ⟨accepts, _, _, order⟩ := spans_resolved_exactly Sample.mixed .standard Sample.across
  refine ⟨(accepts _ _).mpr ⟨_, _, Sample.across_fits, by decide +kernel, by decide +kernel⟩, ?_⟩
  exact (order _ Sample.mixed_file "é\r".toList "é\r\n\t".toList (by decide) (by decide)
    (by decide)).2 (.inl (by decide))

/-- Beyond the greatest exact number a tab and the character behind it end in one column,
so two offsets of a file, one after the other, have one position. -/
theorem positions_coincide_behind_wide_tab :
    ∃ p : Position Number,
      Sample.behindTab.resolve Sample.tabbed.sources Sample.wide = .ok (p, p) ∧
        Sample.behindTab.start.less Sample.behindTab.stop = true ∧ ¬p.Before p := by
  refine ⟨⟨(1 : Nat), (9007199254740992 : Nat)⟩, ?_, by decide, ?_⟩
  · rw [Span.resolve_eq_ok_iff_fits]
    exact ⟨_, _, Sample.behindTab_fits, by decide +kernel, by decide +kernel⟩
  · rintro (line | ⟨_, column⟩)
    · exact absurd line (by decide +kernel)
    · exact absurd column (by decide +kernel)

end Excerpt
