import Excerpt.Proofs.Device.Descriptor
import Excerpt.Proofs.Emission

/-! A terminal can be used again. A report opens with a style and ends with none, so neither what
it puts in the sink of a terminal nor the style it leaves there depends on the style that was
left before. -/
namespace Excerpt

/-- What is done with a device. What fails is done up to where it fails. -/
inductive Use where
  | call (call : Call)
  | emit (sources : Sources) (options : Options) (d : Diagnostic)

section

variable {σ : Type}

namespace Device

def use (device : Device σ) (state : σ) : Use → σ
  | .call call => (device.accept state call).1
  | .emit sources options d => (d.emit device state sources options).1

/-- The state that a device is left in by all that is done with it. -/
def usedBy (device : Device σ) (state : σ) (uses : List Use) : σ := uses.foldl device.use state

theorem feed_cons_eq_none_iff {device : Device σ} {state state' : σ} {call : Call}
    {calls : List Call} : device.feed state (call :: calls) = (state', none) ↔
      ∃ next, device.accept state call = (next, none) ∧
        device.feed next calls = (state', none) := by
  rw [feed]
  rcases device.accept state call with ⟨next, _ | fault⟩ <;> simp

end Device

namespace Sink

variable {sink : Sink σ} {state state' : σ}

theorem putAll_cons_eq_none_iff {text : Strip} {texts : List Strip} :
    sink.putAll state (text :: texts) = (state', none) ↔
      ∃ next, sink.put state text = (next, none) ∧ sink.putAll next texts = (state', none) := by
  rw [putAll]
  rcases sink.put state text with ⟨next, _ | fault⟩ <;> simp

/-- What holds more after every text it takes holds more after all of them. -/
theorem held_of_putAll {β : Type} {held : σ → List β} {gain : Strip → List β}
    (each : ∀ state text next, sink.put state text = (next, none) →
      held next = held state ++ gain text) {texts : List Strip}
    (h : sink.putAll state texts = (state', none)) :
    held state' = held state ++ texts.flatMap gain := by
  induction texts generalizing state with
  | nil =>
    cases h
    rw [List.flatMap_nil, List.append_nil]
  | cons text texts ih =>
    obtain ⟨next, put, rest⟩ := putAll_cons_eq_none_iff.mp h
    rw [ih rest, each state text next put, List.flatMap_cons, List.append_assoc]

end Sink

namespace Trace

/-- The style that some calls leave active. -/
def left (active : Option Style) : List Call → Option Style
  | [] => active
  | .setStyle style :: calls => left (some style) calls
  | .resetStyle :: calls => left none calls
  | .write _ :: calls => left active calls

theorem left_plain (active : Option Style) (runs : List Run) :
    left active (plain runs) = active := by
  induction runs with
  | nil => rfl
  | cons run runs ih => exact ih

theorem left_styledFrom (active : Option Style) (runs : List Run) :
    left active (styledFrom active runs) = none := by
  induction runs generalizing active with
  | nil => cases active <;> rfl
  | cons run runs ih =>
    obtain ⟨_ | style, text⟩ := run
    · cases active <;> exact ih none
    · rw [styledFrom]
      split
      · exact ih active
      · exact ih (some style)

end Trace

namespace Device

variable {level : ColorLevel} {sink : Sink σ} {t t' : Terminal σ}

theorem accept_write_eq_none_iff {text : Strip} :
    (Device.terminal level sink).accept t (.write text) = (t', none) ↔
      (Terminal.painted level t.style text).fits = true ∧
        sink.put t.sink (Terminal.painted level t.style text) = (t'.sink, none) ∧
        t'.style = t.style := by
  obtain ⟨style, state⟩ := t
  obtain ⟨style', state'⟩ := t'
  simp only [terminal, painter]
  split
  · rename_i fits
    simp only [fits, Prod.ext_iff, Terminal.mk.injEq, true_and, eq_comm (a := style)]
    tauto
  · rename_i long
    simp [long]

/-- Calls are taken by a terminal if its sink takes what is painted for them. -/
theorem feed_terminal_eq_none_iff {calls : List Call} :
    (Device.terminal level sink).feed t calls = (t', none) ↔
      AllFit (Trace.pieces (Terminal.painted level) t.style calls) ∧
        sink.putAll t.sink (Trace.pieces (Terminal.painted level) t.style calls) = (t'.sink, none) ∧
        t'.style = Trace.left t.style calls := by
  induction calls generalizing t with
  | nil =>
    constructor
    · intro fed
      cases fed
      exact ⟨by simp [AllFit, Trace.pieces], rfl, rfl⟩
    · rintro ⟨_, put, left⟩
      obtain ⟨style, state⟩ := t
      cases put
      cases left
      rfl
  | cons call calls ih =>
    cases call with
    | setStyle style => exact ih (t := { t with style := some style })
    | resetStyle => exact ih (t := { t with style := none })
    | write text =>
      rw [feed_cons_eq_none_iff, Trace.pieces, Sink.putAll_cons_eq_none_iff, AllFit,
        List.forall_mem_cons]
      constructor
      · rintro ⟨next, accepted, rest⟩
        obtain ⟨fits, put, style⟩ := accept_write_eq_none_iff.mp accepted
        rw [ih, style] at rest
        exact ⟨⟨fits, rest.1⟩, ⟨next.sink, put, rest.2.1⟩, rest.2.2⟩
      · rintro ⟨⟨fits, fit⟩, ⟨next, put, rest⟩, left⟩
        exact ⟨⟨t.style, next⟩, accept_write_eq_none_iff.mpr ⟨fits, put, rfl⟩,
          ih.mpr ⟨fit, rest, left⟩⟩

end Device

/-! ## Whole documents -/

theorem Document.left_trace_of_opens {document : Document} (opens : document.Opens)
    (level : ColorLevel) (active : Option Style) :
    Trace.left active (document.trace (level != .none)) =
      if level = .none then active else none := by
  obtain ⟨style, text, rest, first⟩ := opens
  rw [trace, first]
  cases level with
  | none => exact Trace.left_plain active _
  | basic | extended | full => exact Trace.left_styledFrom (some style) rest

section

variable {level : ColorLevel} {sink : Sink σ} {t t' : Terminal σ}

theorem Device.render_terminal_eq_none_iff {document : Document} (opens : document.Opens) :
    (Device.terminal level sink).render t document = (t', none) ↔
      document.FitsOn level ∧ sink.putAll t.sink (document.pieces level) = (t'.sink, none) ∧
        t'.style = if level = .none then t.style else none := by
  have fed : (Device.terminal level sink).feed t (document.trace (level != .none)) =
      (t', none) ↔ _ :=
    feed_terminal_eq_none_iff
  rw [Document.pieces_trace_of_opens opens, Document.left_trace_of_opens opens] at fed
  rw [Document.FitsOn, ← fed]
  by_cases fits : document.Fits
  · rw [render_of_fits _ _ fits]
    rfl
  · rw [render_of_not_fits _ _ fits]
    simp only [Prod.mk.injEq, reduceCtorEq, and_false, false_iff]
    intro done
    exact fits (Document.fits_of_fitsOn (fed.mp done).1)

/-- The style that a terminal was left with has no part in what is put in its sink. -/
theorem Diagnostic.emit_terminal_eq_none_iff {sources : Sources} {options : Options}
    {d : Diagnostic} : d.emit (Device.terminal level sink) t sources options = (t', none) ↔
      ∃ document, d.document sources options = .ok document ∧ document.FitsOn level ∧
        sink.putAll t.sink (document.pieces level) = (t'.sink, none) ∧
        t'.style = if level = .none then t.style else none := by
  cases built : d.document sources options with
  | error e => simp [emit, built]
  | ok document =>
    simp only [emit, built, Except.ok.injEq, exists_eq_left', Prod.ext_iff (y := (t', none)),
      Option.map_eq_none_iff]
    rw [← Device.render_terminal_eq_none_iff (Diagnostic.opens_document built), Prod.ext_iff]

end
end

/-! ## Collected text -/

theorem Transcript.chars_of_put {t next : Transcript} {text : Strip}
    (h : t.put text = (next, none)) : next.text.chars = t.text.chars ++ text.chars := by
  have own := t.text_put text
  rw [h, if_pos rfl] at own
  rw [own, Strip.chars_append]

theorem Transcript.units_of_put {t next : Transcript} {text : Strip}
    (h : t.put text = (next, none)) : next.units = text.units + t.units := by
  have own := chars_of_put h
  rw [← units_text, ← units_text, Strip.units_eq, Strip.units_eq, Strip.units_eq, own,
    Text.unitsOf_append, Nat.add_comm]

/-- What is collected behind some text is collected behind less. -/
theorem Transcript.exists_putAll {t t' less : Transcript} {texts : List Strip}
    (short : less.units ≤ t.units) (h : Sink.text.putAll t texts = (t', none)) :
    ∃ next, Sink.text.putAll less texts = (next, none) := by
  induction texts generalizing t less with
  | nil => exact ⟨less, rfl⟩
  | cons text texts ih =>
    obtain ⟨next, put, rest⟩ := Sink.putAll_cons_eq_none_iff.mp h
    have room := (t.put_eq_none_iff text).mp (congrArg Prod.snd put)
    have taken : less.put text = ((less.put text).1, none) :=
      Prod.ext rfl ((less.put_eq_none_iff text).mpr (by omega))
    have still_short : (less.put text).1.units ≤ next.units := by
      rw [units_of_put taken, units_of_put put]
      omega
    obtain ⟨last, later⟩ := ih still_short rest
    exact ⟨last, Sink.putAll_cons_eq_none_iff.mpr ⟨_, taken, later⟩⟩

/-! ## Bytes -/

theorem Descriptor.content_of_writeAll {d next : Descriptor} {bytes : List UInt8}
    (h : d.writeAll bytes = (next, none)) :
    next.content.toList = d.content.toList ++ bytes := by
  have handed := d.handed_writeAll bytes
  rw [h] at handed
  cases handed with
  | whole took => exact took.content

theorem Descriptor.exists_putAll_of_steady {d : Descriptor} (steady : d.Steady)
    (texts : List Strip) : ∃ next, Sink.descriptor.putAll d texts = (next, none) := by
  obtain ⟨done, _⟩ := (d.handed_strips texts).gains steady
  exact ⟨_, Prod.ext rfl done⟩

theorem Descriptor.steady_ready : ready.Steady := by
  intro n fault fails
  cases fails

/-! ## Uses of one terminal -/

/-- Whatever a terminal was used for, also if it failed: a diagnostic that is emitted there adds
what it leaves on a fresh terminal of the same level, and with colors no style stays. -/
theorem emit_carries_nothing_over (level : ColorLevel) (sources : Sources) (options : Options)
    (d : Diagnostic) :
    (∀ (uses : List Use) (t : Terminal Transcript),
      let device := Device.terminal level Sink.text
      let used := device.usedBy (.fresh .empty) uses
      d.emit device used sources options = (t, none) →
        (level ≠ .none → t.style = none) ∧
        ∃ fresh, d.emit device (.fresh .empty) sources options = (fresh, none) ∧
          t.sink.text = used.sink.text ++ fresh.sink.text) ∧
    ∀ (answer : Nat → Answer) (uses : List Use) (t : Terminal Descriptor),
      let device := Device.terminal level Sink.descriptor
      let used := device.usedBy (.fresh (.ofAnswers answer)) uses
      d.emit device used sources options = (t, none) →
        (level ≠ .none → t.style = none) ∧
        (∃ fresh, d.emit device (.fresh .ready) sources options = (fresh, none)) ∧
        ∀ (other : Nat → Answer) (fresh : Terminal Descriptor),
          d.emit device (.fresh (.ofAnswers other)) sources options = (fresh, none) →
          t.sink.content = used.sink.content ++ fresh.sink.content := by
  constructor
  · intro uses t device used emitted
    obtain ⟨document, built, fits, put, style⟩ := Diagnostic.emit_terminal_eq_none_iff.mp emitted
    have short : Transcript.empty.units ≤ used.sink.units := Nat.zero_le _
    obtain ⟨fresh, put_fresh⟩ := Transcript.exists_putAll short put
    have after_used := Sink.held_of_putAll (fun _ _ _ => Transcript.chars_of_put) put
    have alone := Sink.held_of_putAll (fun _ _ _ => Transcript.chars_of_put) put_fresh
    have emitted_fresh : d.emit device (.fresh .empty) sources options = (⟨none, fresh⟩, none) :=
      Diagnostic.emit_terminal_eq_none_iff.mpr
        ⟨document, built, fits, put_fresh, (ite_self none).symm⟩
    refine ⟨fun colored => by rw [style, if_neg colored], ⟨none, fresh⟩, emitted_fresh, ?_⟩
    apply Strip.ext_chars
    rw [Strip.chars_append, after_used, alone]
    rfl
  · intro answer uses t device used emitted
    obtain ⟨document, built, fits, put, style⟩ := Diagnostic.emit_terminal_eq_none_iff.mp emitted
    obtain ⟨ready, put_ready⟩ :=
      Descriptor.exists_putAll_of_steady Descriptor.steady_ready (document.pieces level)
    have emitted_ready : d.emit device (.fresh .ready) sources options = (⟨none, ready⟩, none) :=
      Diagnostic.emit_terminal_eq_none_iff.mpr
        ⟨document, built, fits, put_ready, (ite_self none).symm⟩
    refine ⟨fun colored => by rw [style, if_neg colored], ⟨_, emitted_ready⟩, ?_⟩
    intro other fresh emitted_fresh
    obtain ⟨again, same, _, put_fresh, _⟩ := Diagnostic.emit_terminal_eq_none_iff.mp emitted_fresh
    cases built.symm.trans same
    have after_used := Sink.held_of_putAll (fun _ _ _ => Descriptor.content_of_writeAll) put
    have alone := Sink.held_of_putAll (fun _ _ _ => Descriptor.content_of_writeAll) put_fresh
    apply Array.toList_inj.mp
    rw [Array.toList_append, after_used, alone]
    rfl

/-! ## A terminal whose first write failed -/

namespace Sample

theorem letter_document : atLetter.document tabbed.sources .standard =
    .ok (atLetter.reportOf tabbed.sources .standard .standard [letterFound]) :=
  Diagnostic.document_of_buildable standard_resolved letter_resolved letter_buildable

/-- The first write fails. -/
def failsOnce (n : Nat) : Answer := if n = 0 then .fails Descriptor.closedFault else .takesAll

def broken : Terminal Descriptor := .fresh (.ofAnswers failsOnce)

/-- What an emit leaves that fails at the first write. -/
def cutOff : Terminal Descriptor :=
  (atLetter.emit (Device.terminal .basic Sink.descriptor) broken tabbed.sources .standard).1

theorem cutOff_used : (Device.terminal .basic Sink.descriptor).usedBy broken
    [.emit tabbed.sources .standard atLetter] = cutOff := rfl

theorem cutOff_styled : cutOff.style.isSome = true ∧ cutOff.sink.content = #[] := by
  rw [cutOff, Diagnostic.emit, letter_document, Diagnostic.reportOf, letter_layout]
  decide +kernel

theorem emit_after_cutOff :
    (atLetter.emit (Device.terminal .basic Sink.descriptor) cutOff tabbed.sources .standard).2 =
      none := by
  rw [cutOff, Diagnostic.emit, Diagnostic.emit, letter_document, Diagnostic.reportOf, letter_layout]
  decide +kernel

end Sample

theorem emit_carries_nothing_over_sample :
    Sample.cutOff.style.isSome = true ∧
      ∃ t fresh : Terminal Descriptor,
        Sample.atLetter.emit (Device.terminal .basic Sink.descriptor) Sample.cutOff
          Sample.tabbed.sources .standard = (t, none) ∧
        Sample.atLetter.emit (Device.terminal .basic Sink.descriptor) (.fresh .ready)
          Sample.tabbed.sources .standard = (fresh, none) ∧
        t.style = none ∧ t.sink.content = fresh.sink.content := by
  have emitted : Sample.atLetter.emit (Device.terminal .basic Sink.descriptor) Sample.cutOff
      Sample.tabbed.sources .standard = (_, none) := Prod.ext rfl Sample.emit_after_cutOff
  obtain ⟨_, on_descriptors⟩ :=
    emit_carries_nothing_over .basic Sample.tabbed.sources .standard Sample.atLetter
  obtain ⟨unstyled, ⟨fresh, alone⟩, adds⟩ := on_descriptors Sample.failsOnce
    [.emit Sample.tabbed.sources .standard Sample.atLetter] _ emitted
  have content := adds (fun _ => .takesAll) fresh alone
  rw [← Sample.broken, Sample.cutOff_used, Sample.cutOff_styled.2, Array.empty_append] at content
  exact ⟨Sample.cutOff_styled.1, _, fresh, emitted, alone, unstyled (by decide), content⟩

end Excerpt
