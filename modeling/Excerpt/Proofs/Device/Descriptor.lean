import Excerpt.Device.Descriptor
import Excerpt.Proofs.Opening

/-! What a document leaves on a descriptor. Bytes are handed over until all are taken or a write
fails, so on a descriptor that never fails, however short its writes are, the bytes of every
painted text reach it. A document that opens with a style is painted the same whatever style an
earlier one has left, and one of which a painted run is too long leaves a part of what it would
have. -/
namespace Excerpt

/-- Puts some texts in a sink up to the first that fails. -/
def Sink.putAll {σ τ : Type} (sink : Sink σ τ) (state : σ) : List τ → σ × Option Fault
  | [] => (state, none)
  | text :: texts =>
    match sink.put state text with
    | (state, none) => sink.putAll state texts
    | (state, some fault) => (state, some fault)

/-- The texts that calls paint go to the sink in their order, up to one that is too long. -/
theorem Device.feed_painter {σ τ : Type} (supportsColor : Bool) (paint : Option Style → τ → τ)
    (fits : τ → Bool) (sink : Sink σ τ) (active : Option Style) (state : σ)
    (calls : List (Call τ)) :
    let fed := (Device.painter supportsColor paint fits sink).feed ⟨active, state⟩ calls
    let pieces := Trace.pieces paint active calls
    let put := sink.putAll state (pieces.takeWhile fits)
    fed.1.sink = put.1 ∧
      fed.2 = put.2.or (if pieces.all fits then none else some (.ofText .tooLong)) := by
  induction calls generalizing active state with
  | nil => exact ⟨rfl, rfl⟩
  | cons call calls ih =>
    cases call with
    | setStyle style => exact ih (some style) state
    | resetStyle => exact ih none state
    | write text =>
      let painted := paint active text
      by_cases short : fits painted
      · have accepted : (painter supportsColor paint fits sink).accept ⟨active, state⟩
            (.write text) = (⟨active, (sink.put state painted).1⟩, (sink.put state painted).2) := by
          show (if fits painted then _ else _) = _
          rw [if_pos short]
        have first : (painted :: Trace.pieces paint active calls).takeWhile fits =
            painted :: (Trace.pieces paint active calls).takeWhile fits :=
          List.takeWhile_cons_of_pos short
        simp only [feed, accepted, Trace.pieces]
        simp only [painted] at first short
        simp only [first, Sink.putAll, List.all_cons, short, Bool.true_and]
        rcases sink.put state painted with ⟨next, _ | fault⟩
        · exact ih active next
        · exact ⟨rfl, rfl⟩
      · have refused : (painter supportsColor paint fits sink).accept ⟨active, state⟩
            (.write text) = (⟨active, state⟩, some (.ofText .tooLong)) := if_neg short
        have first : (painted :: Trace.pieces paint active calls).takeWhile fits = [] :=
          List.takeWhile_cons_of_neg short
        simp only [feed, refused, Trace.pieces]
        simp only [painted] at first short
        simp only [first, List.all_cons, short, Bool.false_and]
        exact ⟨rfl, rfl⟩

theorem Device.feed_terminal {σ : Type} (level : ColorLevel) (sink : Sink σ) (active : Option Style)
    (state : σ) (calls : List Call) :
    let fed := (Device.terminal level sink).feed ⟨active, state⟩ calls
    let pieces := Trace.pieces (Terminal.painted level) active calls
    let put := sink.putAll state (pieces.takeWhile Strip.fits)
    fed.1.sink = put.1 ∧
      fed.2 = put.2.or (if pieces.all Strip.fits then none else some (.ofText .tooLong)) :=
  feed_painter (level != .none) (Terminal.painted level) Strip.fits sink active state calls

namespace Descriptor

/-- No write fails, however few bytes it takes. -/
def Steady (d : Descriptor) : Prop := ∀ n fault, d.answer n ≠ .fails fault

/-- A descriptor after some writes that did not fail and took some bytes, one at least each. -/
structure Took (d d' : Descriptor) (bytes : List UInt8) : Prop where
  content : d'.content.toList = d.content.toList ++ bytes
  answer : d'.answer = d.answer
  le_writes : d.writes ≤ d'.writes
  writes_le : d'.writes ≤ d.writes + bytes.length
  taken : ∀ n fault, d.writes ≤ n → n < d'.writes → d.answer n ≠ .fails fault

theorem Took.refl (d : Descriptor) : d.Took d [] :=
  ⟨(List.append_nil _).symm, rfl, Nat.le_refl _, Nat.le_refl _, fun _ _ _ _ => by omega⟩

theorem Took.trans {a b c : Descriptor} {bytes more : List UInt8} (h : a.Took b bytes)
    (h' : b.Took c more) : a.Took c (bytes ++ more) where
  content := by rw [h'.content, h.content, List.append_assoc]
  answer := h'.answer.trans h.answer
  le_writes := Nat.le_trans h.le_writes h'.le_writes
  writes_le := by
    have first := h.writes_le
    have second := h'.writes_le
    rw [List.length_append]
    omega
  taken n fault least most := by
    by_cases early : n < b.writes
    · exact h.taken n fault least early
    · rw [← h.answer]
      exact h'.taken n fault (Nat.le_of_not_lt early) most

/-- A write that does not fail. -/
theorem took_write (d : Descriptor) {bytes : List UInt8} (filled : bytes ≠ [])
    (taken : ∀ fault, d.answer d.writes ≠ .fails fault) :
    d.Took { d with content := d.content ++ bytes, writes := d.writes + 1 } bytes where
  content := by simp
  answer := rfl
  le_writes := Nat.le_succ _
  writes_le := Nat.add_le_add_left (List.length_pos_iff.mpr filled) _
  taken n fault least most := by
    have own : n = d.writes := Nat.le_antisymm (Nat.le_of_lt_succ most) least
    rw [own]
    exact taken fault

/-- Some bytes are handed to a descriptor until it has taken all of them, or a write fails while
some are left. -/
inductive Handed (d : Descriptor) (bytes : List UInt8) : Descriptor → Option Fault → Prop
  | whole {d' : Descriptor} (took : d.Took d' bytes) : Handed d bytes d' none
  | cut {d' : Descriptor} {part left : List UInt8} {fault : Fault} (split : part ++ left = bytes)
      (some_left : left ≠ []) (took : d.Took d' part) (fails : d.answer d'.writes = .fails fault) :
      Handed d bytes { d' with writes := d'.writes + 1 } (some fault)

theorem Handed.append {a b c : Descriptor} {bytes more : List UInt8} {fault : Option Fault}
    (first : a.Took b bytes) (rest : b.Handed more c fault) : a.Handed (bytes ++ more) c fault := by
  cases rest with
  | whole took => exact .whole (first.trans took)
  | cut split some_left took fails =>
    apply Handed.cut _ some_left (first.trans took) (first.answer ▸ fails)
    rw [List.append_assoc, split]

theorem Handed.extend {d d' : Descriptor} {bytes : List UInt8} {fault : Fault}
    (h : d.Handed bytes d' (some fault)) (more : List UInt8) :
    d.Handed (bytes ++ more) d' (some fault) := by
  cases h with
  | cut split some_left took fails =>
    apply Handed.cut _ (List.append_ne_nil_of_left_ne_nil some_left more) took fails
    rw [← List.append_assoc, split]

theorem handed_writeAll (d : Descriptor) (bytes : List UInt8) :
    d.Handed bytes (d.writeAll bytes).1 (d.writeAll bytes).2 := by
  fun_induction writeAll d bytes with
  | case1 d => exact .whole (.refl d)
  | case2 d byte rest fault fails => exact .cut rfl (List.cons_ne_nil _ _) (.refl d) fails
  | case3 d byte rest all =>
    apply Handed.whole
    apply d.took_write (List.cons_ne_nil _ _)
    intro fault fails
    cases all.symm.trans fails
  | case4 d byte rest count some_taken ih =>
    have first := d.took_write (List.cons_ne_nil byte (rest.take (count - 1)))
      (fun fault fails => by cases some_taken.symm.trans fails)
    have parts : byte :: rest = (byte :: rest.take (count - 1)) ++ rest.drop (count - 1) := by
      rw [List.cons_append, List.take_append_drop]
    rw [parts]
    exact .append first ih

/-- A descriptor after it has taken some text. -/
structure Gains (d d' : Descriptor) (cs : List Char) : Prop where
  content : d'.content.toList = d.content.toList ++ Utf8.encodeChars cs
  answer : d'.answer = d.answer

theorem Gains.refl (d : Descriptor) : d.Gains d [] := ⟨(List.append_nil _).symm, rfl⟩

theorem Gains.trans {a b c : Descriptor} {cs cs' : List Char} (h : a.Gains b cs)
    (h' : b.Gains c cs') : a.Gains c (cs ++ cs') where
  content := by rw [h'.content, h.content, Utf8.encodeChars_append, List.append_assoc]
  answer := h'.answer.trans h.answer

theorem Gains.steady {d d' : Descriptor} {cs : List Char} (h : d.Gains d' cs) (steady : d.Steady) :
    d'.Steady := by
  intro n fault
  rw [h.answer]
  exact steady n fault

theorem handed_putAll {τ : Type} (encode : τ → List UInt8) (d : Descriptor) (texts : List τ) :
    d.Handed (texts.flatMap encode) ((Sink.bytes encode).putAll d texts).1
      ((Sink.bytes encode).putAll d texts).2 := by
  induction texts generalizing d with
  | nil => exact .whole (.refl d)
  | cons text texts ih =>
    have first := d.handed_writeAll (encode text)
    have put : (Sink.bytes encode).put d text = d.writeAll (encode text) := rfl
    rw [List.flatMap_cons, Sink.putAll, put]
    cases done : d.writeAll (encode text) with
    | mk next fault =>
      rw [done] at first
      cases first with
      | whole took => exact .append took (ih next)
      | cut split some_left took fails =>
        exact (Handed.cut split some_left took fails).extend _

theorem handed_strips (d : Descriptor) (texts : List Strip) :
    d.Handed (Utf8.encodeChars (texts.flatMap Strip.chars)) (Sink.descriptor.putAll d texts).1
      (Sink.descriptor.putAll d texts).2 := by
  have whole : Utf8.encodeChars (texts.flatMap Strip.chars) =
      texts.flatMap fun text => Utf8.encodeChars text.chars := List.flatMap_assoc
  rw [whole]
  exact d.handed_putAll _ texts

/-- A descriptor that never fails gains all that it is handed. -/
theorem Handed.gains {d d' : Descriptor} {cs : List Char} {fault : Option Fault}
    (h : d.Handed (Utf8.encodeChars cs) d' fault) (steady : d.Steady) :
    fault = none ∧ d.Gains d' cs := by
  cases h with
  | whole took => exact ⟨rfl, took.content, took.answer⟩
  | cut _ _ _ fails => exact absurd fails (steady _ _)

end Descriptor

/-- Each of some texts can be written. -/
def AllFit (pieces : List Strip) : Prop := ∀ piece ∈ pieces, piece.fits = true

/-- Some texts are written one after the other, or cut off where one is too long. -/
inductive Descriptor.Writes (d : Descriptor) (pieces : List Strip) :
    Descriptor → Option Fault → Prop
  | whole {d' : Descriptor} (fit : AllFit pieces)
      (gains : d.Gains d' (pieces.flatMap Strip.chars)) : Writes d pieces d' none
  | cut {d' : Descriptor} {cs : List Char} (long : ¬AllFit pieces)
      (part : cs <+: pieces.flatMap Strip.chars) (gains : d.Gains d' cs) :
      Writes d pieces d' (some (.ofText .tooLong))

/-- The pieces of a trace reach a descriptor up to the first that is too long. -/
theorem Device.feed_descriptor (level : ColorLevel) (active : Option Style) {d : Descriptor}
    (steady : d.Steady) (calls : List Call) :
    let fed := (Device.terminal level Sink.descriptor).feed ⟨active, d⟩ calls
    d.Writes (Trace.pieces (Terminal.painted level) active calls) fed.1.sink fed.2 := by
  obtain ⟨taken, fault⟩ := Device.feed_terminal level Sink.descriptor active d calls
  obtain ⟨done, gains⟩ := (d.handed_strips _).gains steady
  dsimp only
  rw [taken, fault, done, Option.none_or]
  by_cases fit : (Trace.pieces (Terminal.painted level) active calls).all Strip.fits
  · rw [if_pos fit]
    rw [List.takeWhile_eq_self_iff.mpr (List.all_eq_true.mp fit)] at gains ⊢
    exact .whole (List.all_eq_true.mp fit) gains
  · rw [if_neg fit]
    obtain ⟨rest, split⟩ :
        (Trace.pieces (Terminal.painted level) active calls).takeWhile Strip.fits <+:
          Trace.pieces (Terminal.painted level) active calls :=
      List.takeWhile_prefix Strip.fits
    refine .cut (mt List.all_eq_true.mpr fit) ⟨rest.flatMap Strip.chars, ?_⟩ gains
    rw [← List.flatMap_append, split]

/-! ## Whole documents -/

namespace Document

/-- The joined runs of a document as they are painted. -/
def pieces (document : Document) (level : ColorLevel) : List Strip :=
  (Run.coalesce document.runs).map (Run.paintedOn level)

/-- Each painted run of a document can be written. -/
def FitsOn (document : Document) (level : ColorLevel) : Prop := AllFit (document.pieces level)

instance (document : Document) (level : ColorLevel) : Decidable (document.FitsOn level) :=
  inferInstanceAs (Decidable (∀ piece ∈ _, _))

variable {document : Document} {level : ColorLevel}

/-- Painting only adds, so what can be written painted can be written bare. -/
theorem fits_of_fitsOn (h : document.FitsOn level) : document.Fits := by
  intro run joined
  have painted := of_decide_eq_true (h _ (List.mem_map_of_mem joined))
  exact decide_eq_true (Nat.le_trans (run.units_le_paintedOn level) painted)

theorem chars_paintedOn (document : Document) (level : ColorLevel) :
    (document.paintedOn level).chars = (document.pieces level).flatMap Strip.chars :=
  Strip.chars_join _

/-- A style that is still active makes no difference to a document that opens with one. -/
theorem pieces_trace_of_opens (h : document.Opens) (level : ColorLevel) (active : Option Style) :
    Trace.pieces (Terminal.painted level) active (document.trace (level != .none)) =
      document.pieces level := by
  obtain ⟨style, text, rest, opens⟩ := h
  have fresh : Trace.pieces (Terminal.painted level) none (document.trace (level != .none)) =
      document.pieces level := Trace.pieces_ofRuns level _
  rw [← fresh]
  unfold trace
  rw [opens]
  cases level with
  | none => rw [Trace.pieces_ofRuns .none, ← Trace.pieces_plain active]; rfl
  | basic | extended | full => rfl

end Document

/-- What rendering a document leaves on a descriptor. -/
theorem Device.render_descriptor {document : Document} (opens : document.Opens)
    (level : ColorLevel) {t : Terminal Descriptor} (steady : t.sink.Steady) :
    let rendered := (Device.terminal level Sink.descriptor).render t document
    t.sink.Writes (document.pieces level) rendered.1.sink rendered.2 := by
  by_cases fits : document.Fits
  · rw [← Document.pieces_trace_of_opens opens level t.style]
    rw [Device.render_of_fits _ _ fits]
    exact Device.feed_descriptor level t.style steady _
  · rw [Device.render_of_not_fits _ _ fits]
    exact .cut (fun painted => fits (Document.fits_of_fitsOn painted)) List.nil_prefix (.refl _)

end Excerpt
