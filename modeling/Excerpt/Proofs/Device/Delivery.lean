import Excerpt.Device.Units
import Excerpt.Proofs.Reuse
import Excerpt.Proofs.Text.Utf16
import Excerpt.Proofs.Text.Utf8

/-! Delivery to a descriptor. Whatever part of its bytes each write takes, also one that ends
inside a character or a sequence, a descriptor ends with the encoding of the text that a terminal
collects from the same calls; a write that fails leaves the part of it that was taken. In texts of
any units a character can be cut in two; its halves are then collected as the character, and reach
a descriptor one by one. -/
namespace Excerpt

/-- Which texts reach the sink of a new terminal, and whether one behind them is too long, depends
on its level and on the calls, and not on the sink. -/
theorem Device.exists_fed (level : ColorLevel) (calls : List Call) :
    ∃ (texts : List Strip) (refusal : Option Fault),
      (∀ fault, refusal = some fault → fault = .ofText .tooLong) ∧
      ∀ {σ : Type} (sink : Sink σ) (state : σ),
        let fed := (Device.terminal level sink).feed (.fresh state) calls
        fed.1.sink = (sink.putAll state texts).1 ∧
          fed.2 = (sink.putAll state texts).2.or refusal := by
  refine ⟨_, _, ?_, fun sink state => Device.feed_terminal level sink none state calls⟩
  intro fault refused
  split at refused
  · cases refused
  · exact (Option.some.inj refused).symm

/-- A text that is refused would be too long, and leaves what has been collected. -/
theorem Transcript.refused_of_put {t next : Transcript} {text : Strip} {fault : Fault}
    (h : t.put text = (next, some fault)) : next = t ∧ fault = .ofText .tooLong := by
  unfold put at h
  split at h
  · cases h
  · cases h
    exact ⟨rfl, rfl⟩

/-- Texts that are collected are all held in the end, or those in front of one that is refused. -/
theorem Transcript.putAll_cases (t : Transcript) (texts : List Strip) :
    let put := Sink.text.putAll t texts
    put.2 = none ∧ put.1.text.chars = t.text.chars ++ texts.flatMap Strip.chars ∨
      put.2 = some (.ofText .tooLong) ∧
        ∃ part, part <+: texts.flatMap Strip.chars ∧ put.1.text.chars = t.text.chars ++ part := by
  induction texts generalizing t with
  | nil => exact .inl ⟨rfl, (List.append_nil _).symm⟩
  | cons text texts ih =>
    have put : Sink.text.put t text = t.put text := rfl
    rw [Sink.putAll, put, List.flatMap_cons]
    cases taken : t.put text with
    | mk next fault =>
      cases fault with
      | none =>
        have own := chars_of_put taken
        rcases ih next with ⟨done, whole⟩ | ⟨refused, part, inside, whole⟩
        · refine .inl ⟨done, ?_⟩
          rw [whole, own, List.append_assoc]
        · refine .inr ⟨refused, text.chars ++ part, ?_, ?_⟩
          · exact (List.prefix_append_right_inj _).mpr inside
          · rw [whole, own, List.append_assoc]
      | some fault =>
        obtain ⟨rfl, rfl⟩ := refused_of_put taken
        exact .inr ⟨rfl, [], List.nil_prefix, (List.append_nil _).symm⟩

namespace Descriptor

/-- What some writes leave on a descriptor of which the answers are given: all the bytes if no write
fails, and otherwise a part of them in front of the rest that the last write did not take. There
are no more writes than bytes. -/
structure Delivered (answer : Nat → Answer) (bytes : List UInt8) (d : Descriptor)
    (fault : Option Fault) : Prop where
  part : d.content.toList <+: bytes
  whole_iff : d.content.toList = bytes ↔ fault = none
  taken_iff : (∀ n < d.writes, ∀ fault, answer n ≠ .fails fault) ↔ fault = none
  failed : ∀ failure, fault = some failure →
    ∃ last, d.writes = last + 1 ∧ answer last = .fails failure
  writes_le : d.writes ≤ bytes.length

theorem Delivered.whole {answer : Nat → Answer} {bytes : List UInt8} {d : Descriptor}
    {fault : Option Fault} (h : Delivered answer bytes d fault)
    (taken : ∀ n < d.writes, ∀ fault, answer n ≠ .fails fault) : d.content.toList = bytes :=
  h.whole_iff.mpr (h.taken_iff.mp taken)

theorem delivered_of_handed {answer : Nat → Answer} {bytes : List UInt8} {d : Descriptor}
    {fault : Option Fault} (h : (ofAnswers answer).Handed bytes d fault) :
    Delivered answer bytes d fault := by
  cases h with
  | whole took =>
    have whole : d.content.toList = bytes := took.content
    refine ⟨whole ▸ List.prefix_refl _, iff_of_true whole rfl, iff_of_true ?taken rfl, ?failed,
      ?writes⟩
    case taken => exact fun n made fault => took.taken n fault (Nat.zero_le n) made
    case failed => exact fun failure failed => by cases failed
    case writes => exact Nat.zero_add bytes.length ▸ took.writes_le
  | @cut d' part left fault split some_left took fails =>
    have own : d'.content.toList = part := took.content
    have shorter : part.length < bytes.length := by
      have rest := List.length_pos_iff.mpr some_left
      rw [← split, List.length_append]
      omega
    refine ⟨⟨left, own ▸ split⟩, iff_of_false ?part (by simp), iff_of_false ?taken (by simp),
      ?failed, ?writes⟩
    case part =>
      intro whole
      rw [← whole, ← own] at shorter
      exact Nat.lt_irrefl _ shorter
    case taken => exact fun taken => taken d'.writes (Nat.lt_succ_self _) fault fails
    case failed =>
      intro failure failed
      cases failed
      exact ⟨d'.writes, rfl, fails⟩
    case writes =>
      have made : d'.writes ≤ 0 + part.length := took.writes_le
      show d'.writes + 1 ≤ bytes.length
      omega

end Descriptor

/-! ## Texts of any units -/

theorem Sink.units_putAll_cases (held : Utf16.Units) (texts : List Utf16.Units) :
    let put := Sink.units.putAll held texts
    put.2 = none ∧ put.1 = held ++ texts.flatten ∨
      put.2 = some (.ofText .tooLong) ∧
        ∃ front, front <+: texts ∧ put.1 = held ++ front.flatten := by
  induction texts generalizing held with
  | nil => exact .inl ⟨rfl, (List.append_nil _).symm⟩
  | cons text texts ih =>
    by_cases short : Utf16.fits (held ++ text) = true
    · have taken : Sink.units.put held text = (held ++ text, none) := if_pos short
      rw [putAll, taken]
      rcases ih (held ++ text) with ⟨done, whole⟩ | ⟨refused, front, part, whole⟩
      · refine .inl ⟨done, ?_⟩
        rw [whole, List.flatten_cons, List.append_assoc]
      · refine .inr ⟨refused, text :: front, (List.prefix_cons_inj text).mpr part, ?_⟩
        rw [whole, List.flatten_cons, List.append_assoc]
    · have refused : Sink.units.put held text = (held, some (.ofText .tooLong)) := if_neg short
      rw [putAll, refused]
      exact .inr ⟨rfl, [], List.nil_prefix, (List.append_nil _).symm⟩

/-- Texts are encoded one by one as they are together unless a character is cut in two. -/
theorem Utf16.bytes_flatten_iff (texts : List Units) :
    bytes texts.flatten = texts.flatMap bytes ↔ Uncut texts := by
  have each : texts.flatMap bytes = Utf8.encodeChars (texts.flatMap decode) :=
    List.flatMap_assoc.symm
  rw [each, ← decode_flatten_iff]
  constructor
  · intro same
    have chars := congrArg (Utf8.decodeFrom none) same
    rw [bytes, Utf8.decodeFrom_encodeChars, Utf8.decodeFrom_encodeChars] at chars
    exact chars
  · exact congrArg Utf8.encodeChars

/-- The bytes of the painted texts reach a descriptor, one text after the other. They are those of
the text that is collected exactly if no character is cut in two. -/
theorem Descriptor.delivered_units (level : ColorLevel)
    (paint : ColorLevel → Option Style → Utf16.Units → Utf16.Units) (answer : Nat → Answer)
    (calls : List (Call Utf16.Units)) :
    let collected := (Device.unitsTerminal level paint Sink.units).feed (.fresh []) calls
    let written := (Device.unitsTerminal level paint (.bytes Utf16.bytes)).feed
      (.fresh (.ofAnswers answer)) calls
    let texts := Trace.pieces (paint level) none calls
    (collected.2 = none →
      collected.1.sink = texts.flatten ∧
      Delivered answer (texts.flatMap Utf16.bytes) written.1.sink written.2) ∧
    ∀ fault, collected.2 = some fault → fault = .ofText .tooLong ∧
      ((∀ n < written.1.sink.writes, ∀ fault, answer n ≠ .fails fault) → Utf16.Uncut texts →
        Utf16.bytes collected.1.sink <+: written.1.sink.content.toList) := by
  intro collected written texts
  obtain ⟨held, collected_fault⟩ := Device.feed_painter (level != .none) (paint level) Utf16.fits
    Sink.units none [] calls
  obtain ⟨taken, written_fault⟩ := Device.feed_painter (level != .none) (paint level) Utf16.fits
    (.bytes Utf16.bytes) none (ofAnswers answer) calls
  have fitting : texts.takeWhile Utf16.fits <+: texts :=
    List.takeWhile_prefix Utf16.fits
  have delivered := delivered_of_handed
    ((ofAnswers answer).handed_putAll Utf16.bytes (texts.takeWhile Utf16.fits))
  have sink : written.1.sink = _ := taken
  have fault : written.2 = _ := written_fault
  have text : collected.1.sink = _ := held
  have refusal : collected.2 = _ := collected_fault
  rw [sink, fault, text, refusal]
  rcases Sink.units_putAll_cases [] (texts.takeWhile Utf16.fits) with
    ⟨kept, whole⟩ | ⟨refused, front, part, whole⟩
  · rw [kept, whole, List.nil_append, Option.none_or]
    by_cases fit : texts.all Utf16.fits = true
    · have all := List.takeWhile_eq_self_iff.mpr (List.all_eq_true.mp fit)
      rw [if_pos fit, Option.or_none]
      rw [all] at delivered ⊢
      refine ⟨fun _ => ⟨rfl, delivered⟩, ?_⟩
      intro fault some_fault
      cases some_fault
    · rw [if_neg fit]
      constructor
      · intro done
        cases done
      · rintro fault ⟨⟩
        refine ⟨rfl, fun steady uncut => ?_⟩
        have told := (Utf16.bytes_flatten_iff _).mpr (uncut.of_prefix fitting)
        exact told.trans (delivered.whole steady).symm ▸ List.prefix_refl _
  · rw [refused, whole, List.nil_append, Option.some_or]
    constructor
    · intro done
      cases done
    · rintro fault ⟨⟩
      refine ⟨rfl, fun steady uncut => ?_⟩
      rw [(Utf16.bytes_flatten_iff _).mpr (uncut.of_prefix (part.trans fitting)),
        delivered.whole steady]
      obtain ⟨rest, split⟩ := part
      rw [← split, List.flatMap_append]
      exact List.prefix_append _ _

/-! ## Two terminals -/

theorem Descriptor.delivered_text (level : ColorLevel) (answer : Nat → Answer)
    (calls : List Call) :
    let collected := (Device.terminal level Sink.text).feed (.fresh .empty) calls
    let written := (Device.terminal level Sink.descriptor).feed (.fresh (.ofAnswers answer)) calls
    let bytes := Utf8.encodeChars collected.1.sink.text.chars
    (collected.2 = none → Delivered answer bytes written.1.sink written.2) ∧
    ∀ fault, collected.2 = some fault → fault = .ofText .tooLong ∧
      ((∀ n < written.1.sink.writes, ∀ fault, answer n ≠ .fails fault) →
        bytes <+: written.1.sink.content.toList) := by
  obtain ⟨texts, refusal, too_long, fed⟩ := Device.exists_fed level calls
  obtain ⟨held, collected_fault⟩ := fed Sink.text .empty
  obtain ⟨taken, written_fault⟩ := fed Sink.descriptor (.ofAnswers answer)
  have delivered := Descriptor.delivered_of_handed
    ((Descriptor.ofAnswers answer).handed_strips texts)
  dsimp only
  rw [held, collected_fault, taken, written_fault]
  rcases Transcript.empty.putAll_cases texts with ⟨kept, whole⟩ | ⟨refused, part, inside, whole⟩
  · have same : (Sink.text.putAll .empty texts).1.text.chars = texts.flatMap Strip.chars := whole
    rw [kept, same, Option.none_or]
    constructor
    · rintro rfl
      rw [Option.or_none]
      exact delivered
    · rintro fault rfl
      refine ⟨too_long fault rfl, fun steady => ?_⟩
      exact ⟨[], (List.append_nil _).trans (delivered.whole steady).symm⟩
  · have same : (Sink.text.putAll .empty texts).1.text.chars = part := whole
    rw [refused, same, Option.some_or]
    constructor
    · intro done
      cases done
    · rintro fault ⟨⟩
      refine ⟨rfl, fun steady => ?_⟩
      obtain ⟨rest, split⟩ := inside
      rw [delivered.whole steady, ← split, Utf8.encodeChars_append]
      exact List.prefix_append _ _

/-- For any answers of a descriptor to any writes: it ends with the encoding of the text that a
terminal of the same level collects from the same calls, or with the part of it in front of what a
failing write was handed. Where the text that is collected becomes too long, more may reach the
descriptor. Texts of any units reach it one by one, however they are painted, and that is the
encoding of the text that is collected exactly if no character is cut in two between them. -/
theorem descriptor_gets_each_byte_once (level : ColorLevel) (answer : Nat → Answer) :
    (∀ calls : List Call,
      let collected := (Device.terminal level Sink.text).feed (.fresh .empty) calls
      let written := (Device.terminal level Sink.descriptor).feed (.fresh (.ofAnswers answer)) calls
      let bytes := Utf8.encodeChars collected.1.sink.text.chars
      (collected.2 = none → Descriptor.Delivered answer bytes written.1.sink written.2) ∧
      ∀ fault, collected.2 = some fault → fault = .ofText .tooLong ∧
        ((∀ n < written.1.sink.writes, ∀ fault, answer n ≠ .fails fault) →
          bytes <+: written.1.sink.content.toList)) ∧
    ∀ (paint : ColorLevel → Option Style → Utf16.Units → Utf16.Units)
      (calls : List (Call Utf16.Units)),
      let collected := (Device.unitsTerminal level paint Sink.units).feed (.fresh []) calls
      let written := (Device.unitsTerminal level paint (.bytes Utf16.bytes)).feed
        (.fresh (.ofAnswers answer)) calls
      let bytes := Utf16.bytes collected.1.sink
      let texts := Trace.pieces (paint level) none calls
      (collected.2 = none →
        Descriptor.Delivered answer (texts.flatMap Utf16.bytes) written.1.sink written.2 ∧
        (bytes = texts.flatMap Utf16.bytes ↔ Utf16.Uncut texts)) ∧
      ∀ fault, collected.2 = some fault → fault = .ofText .tooLong ∧
        ((∀ n < written.1.sink.writes, ∀ fault, answer n ≠ .fails fault) → Utf16.Uncut texts →
          bytes <+: written.1.sink.content.toList) := by
  constructor
  · exact Descriptor.delivered_text level answer
  · intro paint calls collected written bytes texts
    obtain ⟨taken, refused⟩ := Descriptor.delivered_units level paint answer calls
    refine ⟨fun done => ?_, refused⟩
    obtain ⟨held, delivered⟩ := taken done
    have whole : bytes = Utf16.bytes texts.flatten := congrArg Utf16.bytes held
    exact ⟨delivered, whole ▸ Utf16.bytes_flatten_iff texts⟩

namespace Sample

/-- A letter of two bytes in bold, and two without a style. -/
def accented : List Call :=
  [.setStyle { Style.empty with bold := some true }, .write "é", .resetStyle, .write "ok"]

/-- Writes take one byte each; the sixth one fails. -/
def failsSixth (n : Nat) : Answer := if n = 5 then .fails Descriptor.closedFault else .takes 1

def unpainted (_ : ColorLevel) (_ : Option Style) (text : Utf16.Units) : Utf16.Units := text

/-- The two halves of a character. -/
def halves : List (Call Utf16.Units) := [.write [0xD83D], .write [0xDE00]]

end Sample

/-- Bytes are written one by one, all of them or up to the middle of the first letter. Of two halves
the first is written, as the character that stands for a half. -/
theorem descriptor_gets_each_byte_once_sample :
    let collected := (Device.terminal .basic Sink.text).feed (.fresh .empty) Sample.accented
    let bytes := Utf8.encodeChars collected.1.sink.text.chars
    let written (answer : Nat → Answer) :=
      (Device.terminal .basic Sink.descriptor).feed (.fresh (.ofAnswers answer)) Sample.accented
    collected.2 = none ∧ bytes.length = 13 ∧
      (written fun _ => .takes 1).1.sink.content.toList = bytes ∧
      (written Sample.failsSixth).2 = some Descriptor.closedFault ∧
      Descriptor.Delivered Sample.failsSixth bytes (written Sample.failsSixth).1.sink
        (written Sample.failsSixth).2 ∧
      let held := (Device.unitsTerminal .none Sample.unpainted Sink.units).feed (.fresh [])
        Sample.halves
      let cut := (Device.unitsTerminal .none Sample.unpainted (.bytes Utf16.bytes)).feed
        (.fresh (.ofAnswers Sample.failsSixth)) Sample.halves
      held.2 = none ∧ Utf16.bytes held.1.sink = [0xF0, 0x9F, 0x98, 0x80] ∧
        ¬Utf16.Uncut [[0xD83D], [0xDE00]] ∧ cut.2 = some Descriptor.closedFault ∧
        Descriptor.Delivered Sample.failsSixth [0xEF, 0xBF, 0xBD, 0xEF, 0xBF, 0xBD] cut.1.sink
          cut.2 := by
  intro collected bytes written
  have taken : collected.2 = none := by decide +kernel
  have slow := ((descriptor_gets_each_byte_once .basic fun _ => .takes 1).1 Sample.accented).1 taken
  have cut := ((descriptor_gets_each_byte_once .basic Sample.failsSixth).1 Sample.accented).1 taken
  have parted := ((descriptor_gets_each_byte_once .none Sample.failsSixth).2 Sample.unpainted
    Sample.halves).1 (by decide +kernel)
  refine ⟨taken, by decide +kernel, ?_, by decide +kernel, cut, by decide +kernel,
    by decide +kernel, ?_, by decide +kernel, parted.1⟩
  · apply slow.whole
    intro n _ fault fails
    cases fails
  · intro uncut
    have same := parted.2.mpr uncut
    revert same
    decide +kernel

namespace Sample

/-- A letter, and as many spaces as the longest text has units. -/
def letterAndSpaces : List Call := [.write "a", .write (.repeated Text.longest ' ')]

theorem letterAndSpaces_collected :
    let collected := (Device.terminal .none Sink.text).feed (.fresh .empty) letterAndSpaces
    collected.2 = some (.ofText .tooLong) ∧ collected.1.sink.text.chars = ['a'] := by
  decide +kernel

theorem letterAndSpaces_written :
    let written := (Device.terminal .none Sink.descriptor).feed (.fresh .ready) letterAndSpaces
    written.2 = none ∧ written.1.sink.content.toList =
      Utf8.encodeChars ('a' :: List.replicate Text.longest ' ') := by
  have pieces : (Trace.pieces (Terminal.painted .none) none letterAndSpaces).flatMap Strip.chars =
      'a' :: List.replicate Text.longest ' ' := by
    have letter : Strip.chars "a" = ['a'] := by decide
    show Strip.chars "a" ++ ((Strip.repeated Text.longest ' ').chars ++ []) = _
    rw [letter, Strip.chars_repeated, List.append_nil, List.singleton_append]
  have fit : ∀ piece ∈ Trace.pieces (Terminal.painted .none) none letterAndSpaces,
      piece.fits = true := by
    decide +kernel
  have writes := Device.feed_descriptor .none none Descriptor.steady_ready letterAndSpaces
  rw [Terminal.fresh]
  generalize (Device.terminal .none Sink.descriptor).feed ⟨none, Descriptor.ready⟩
    letterAndSpaces = fed at writes ⊢
  obtain ⟨t, fault⟩ := fed
  cases writes with
  | whole _ gains =>
    have content := gains.content
    rw [pieces] at content
    exact ⟨rfl, content.trans (List.nil_append _)⟩
  | cut long _ _ => exact absurd fit long

end Sample

/-- What a descriptor holds can be longer than any text, so it can take what no terminal
collects. The halves of a character are collected as the character, and each reaches a descriptor
as one that stands for a half. -/
theorem descriptor_takes_more_than_text :
    (let collected :=
        (Device.terminal .none Sink.text).feed (.fresh .empty) Sample.letterAndSpaces
      let written :=
        (Device.terminal .none Sink.descriptor).feed (.fresh .ready) Sample.letterAndSpaces
      written.2 = none ∧ collected.2 = some (.ofText .tooLong) ∧
        written.1.sink.content.toList ≠ Utf8.encodeChars collected.1.sink.text.chars) ∧
    let collected := (Device.unitsTerminal .none Sample.unpainted Sink.units).feed (.fresh [])
      Sample.halves
    let written := (Device.unitsTerminal .none Sample.unpainted (.bytes Utf16.bytes)).feed
      (.fresh .ready) Sample.halves
    written.2 = none ∧ collected.2 = none ∧
      written.1.sink.content.toList = [0xEF, 0xBF, 0xBD, 0xEF, 0xBF, 0xBD] ∧
      Utf16.bytes collected.1.sink = [0xF0, 0x9F, 0x98, 0x80] := by
  obtain ⟨done, content⟩ := Sample.letterAndSpaces_written
  obtain ⟨refused, text⟩ := Sample.letterAndSpaces_collected
  refine ⟨⟨done, refused, ?_⟩, by decide +kernel⟩
  intro same
  rw [content, text] at same
  have chars := congrArg (Utf8.decodeFrom none) same
  rw [Utf8.decodeFrom_encodeChars, Utf8.decodeFrom_encodeChars] at chars
  have length := congrArg List.length chars
  rw [List.length_cons, List.length_replicate] at length
  exact absurd length (by decide)

end Excerpt
