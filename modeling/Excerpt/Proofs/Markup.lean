import Excerpt.Device.Markup
import Excerpt.Proofs.Canonical
import Excerpt.Proofs.Collected
import Excerpt.Proofs.Naming
import Excerpt.Proofs.Replay

/-! Markup says all there is to say. Text without opening braces can be told from the marks
around it, so the characters of a document and what their styles set can be read off its
markup. -/
namespace Excerpt

/-- The text of a style. -/
def Style.words (s : Style) : List Char := s.toText.toList

/-- A character and what its style is called. -/
def Cell.named (cell : Cell) : Char × Option (List Char) := (cell.1, cell.2.map Style.words)

theorem sameCells_of_named {a b : List Cell} (h : a.map Cell.named = b.map Cell.named) :
    SameCells a b := by
  rw [← List.forall₂_eq_eq_eq, List.forall₂_map_left_iff, List.forall₂_map_right_iff] at h
  refine h.imp fun x y same => ?_
  obtain ⟨c, style⟩ := x
  obtain ⟨d, style'⟩ := y
  obtain ⟨rfl, words⟩ := Prod.mk.inj same
  refine ⟨rfl, ?_⟩
  cases style with
  | none =>
    cases style' with
    | none => rfl
    | some style' => cases words
  | some style =>
    cases style' with
    | none => cases words
    | some style' =>
      have text := String.toList_injective (Option.some.inj words)
      exact congrArg some (Style.toText_eq_iff.mp text)

namespace Markup

/-- Reads markup: the words in braces stand for a style, but a slash for none. -/
def read (words : Option (List Char)) : List Char → List (Char × Option (List Char))
  | [] => []
  | c :: cs =>
    if c = '\x7b' then
      let inside := cs.takeWhile (· != '\x7d')
      read (if inside = ['/'] then none else some inside) (cs.dropWhile (· != '\x7d')).tail
    else (c, words) :: read words cs
  termination_by cs => cs.length
  decreasing_by
    · have shorter := (List.dropWhile_sublist (p := fun c => c != '\x7d') (l := cs)).length_le
      simp only [List.length_tail, List.length_cons]
      omega
    · exact Nat.lt_succ_self _

theorem read_braces (words : Option (List Char)) {inside : List Char} (closed : '\x7d' ∉ inside)
    (rest : List Char) :
    read words ('\x7b' :: (inside ++ '\x7d' :: rest)) =
      read (if inside = ['/'] then none else some inside) rest := by
  have all : ∀ c ∈ inside, (c != '\x7d') = true :=
    fun c own => bne_iff_ne.mpr fun brace => closed (brace ▸ own)
  have taken : (inside ++ '\x7d' :: rest).takeWhile (· != '\x7d') = inside := by
    rw [List.takeWhile_append_of_pos all]
    simp
  have dropped : (inside ++ '\x7d' :: rest).dropWhile (· != '\x7d') = '\x7d' :: rest := by
    rw [List.dropWhile_append_of_pos all]
    simp
  rw [read, if_pos rfl, taken, dropped, List.tail_cons]

theorem read_text (words : Option (List Char)) {cs : List Char} (free : '\x7b' ∉ cs)
    (rest : List Char) : read words (cs ++ rest) = cs.map (·, words) ++ read words rest := by
  induction cs with
  | nil => rfl
  | cons c cs ih =>
    rw [List.mem_cons, not_or] at free
    rw [List.cons_append, read, if_neg (Ne.symm free.1), ih free.2]
    rfl

/-- No style is called a slash, and none has a brace in its text. -/
theorem words_plain (s : Style) : '\x7d' ∉ s.words ∧ s.words ≠ ['/'] := by
  constructor
  · exact fun brace => absurd (Style.isLower_of_mem_toText brace) (by decide)
  · intro slash
    have own : '/' ∈ s.toText.toList := by
      rw [show s.toText.toList = ['/'] from slash]
      decide
    exact absurd (Style.isLower_of_mem_toText own) (by decide)

/-- What is read off a call is what it shows. -/
theorem read_ofCall (s : Screen) {call : Call} (free : ∀ text ∈ call.text?, '\x7b' ∉ text.chars)
    (rest : List Char) :
    s.cells.map Cell.named ++ read (s.active.map Style.words) ((ofCall call).chars ++ rest) =
      (s.take call).cells.map Cell.named ++ read ((s.take call).active.map Style.words) rest := by
  cases call with
  | setStyle style =>
    obtain ⟨closed, named⟩ := words_plain style
    have spelled : (ofCall (.setStyle style)).chars ++ rest =
        '\x7b' :: (style.words ++ '\x7d' :: rest) := by
      simp [ofCall, Style.words]
    rw [spelled, read_braces _ closed, if_neg named]
    rfl
  | resetStyle =>
    have spelled : (ofCall .resetStyle).chars ++ rest = '\x7b' :: (['/'] ++ '\x7d' :: rest) := by
      simp [ofCall]
    rw [spelled, read_braces _ (by decide), if_pos rfl]
    rfl
  | write text =>
    have shown : (s.take (.write text)).cells.map Cell.named = s.cells.map Cell.named ++
        text.chars.map (·, s.active.map Style.words) := by
      rw [Screen.take, List.map_append, List.map_map]
      rfl
    rw [shown, List.append_assoc]
    exact congrArg _ (read_text _ (free text rfl) rest)

/-- What is read off some calls is what they show. -/
theorem read_ofCalls (s : Screen) {calls : List Call}
    (free : ∀ text ∈ calls.filterMap Call.text?, '\x7b' ∉ text.chars) :
    s.cells.map Cell.named ++
        read (s.active.map Style.words) (calls.flatMap fun call => (ofCall call).chars) =
      (s.replay calls).cells.map Cell.named := by
  induction calls generalizing s with
  | nil =>
    rw [List.flatMap_nil, read, List.append_nil]
    rfl
  | cons call calls ih =>
    have own : ∀ text ∈ call.text?, '\x7b' ∉ text.chars := fun text eq =>
      free text (List.mem_filterMap.mpr ⟨call, List.mem_cons_self, eq⟩)
    have later : ∀ text ∈ calls.filterMap Call.text?, '\x7b' ∉ text.chars := by
      intro text inside
      obtain ⟨other, member, eq⟩ := List.mem_filterMap.mp inside
      exact free text (List.mem_filterMap.mpr ⟨other, List.mem_cons_of_mem call member, eq⟩)
    rw [List.flatMap_cons, read_ofCall s own, ih (s.take call) later]
    rfl

/-- Calls for the same runs have the same marks, however their styles are written. -/
theorem ofCall_styledFrom {runs others : List Run} (same : List.Forall₂ Run.Same runs others)
    {active active' : Option Style} (alike : SameStyle active active') :
    (Trace.styledFrom active runs).map ofCall = (Trace.styledFrom active' others).map ofCall := by
  have reset {active active' : Option Style} (alike : SameStyle active active') :
      Trace.reset active = Trace.reset active' := by
    have styled := congrArg Option.isSome alike
    rw [Option.isSome_map, Option.isSome_map] at styled
    rw [Trace.reset, Trace.reset, styled]
  induction same generalizing active active' with
  | nil => exact congrArg (List.map ofCall) (reset alike)
  | @cons run other runs others own _ ih =>
    obtain ⟨style, text⟩ := run
    obtain ⟨style', text'⟩ := other
    obtain ⟨rfl, style_same⟩ : text = text' ∧ SameStyle style style' := own
    cases style with
    | none =>
      cases style' with
      | none =>
        simp only [Trace.styledFrom, List.map_append, List.map_cons, reset alike,
          ih (SameStyle.refl none)]
      | some style' => cases style_same
    | some style =>
      cases style' with
      | none => cases style_same
      | some style' =>
        have stays : SameStyle active (some style) ↔ SameStyle active' (some style') :=
          ⟨fun h => alike.symm.trans (h.trans style_same),
            fun h => alike.trans (h.trans style_same.symm)⟩
        have mark : ofCall (.setStyle style) = ofCall (.setStyle style') := by
          rw [ofCall, ofCall, Style.toText_eq_iff.mpr (Option.some.inj style_same)]
        by_cases h : SameStyle active (some style)
        · simp only [Trace.styledFrom, if_pos h, if_pos (stays.mp h), List.map_cons, ih alike]
        · simp only [Trace.styledFrom, if_neg h, if_neg (mt stays.mpr h), List.map_cons, mark,
            ih style_same]

end Markup

/-! ## The markup of a document -/

/-- A markup device collects the marks and texts of its calls behind what it has, up to the
longest text. -/
theorem Device.text?_feed_markup (t : Transcript) (calls : List Call) :
    Transcript.text? (markup.feed t calls) =
      (t.text ++ Strip.join (calls.map Markup.ofCall)).fitting? := by
  induction calls generalizing t with
  | nil => exact t.fitting?_text.symm
  | cons call calls ih =>
    have joined : Strip.join ((call :: calls).map Markup.ofCall) =
        Markup.ofCall call ++ Strip.join (calls.map Markup.ofCall) := rfl
    rw [joined]
    rcases t.put_cases (Markup.ofCall call) (Strip.join (calls.map Markup.ofCall)) with
      ⟨taken, own⟩ | ⟨⟨fault, failed⟩, long⟩
    · have accepted : markup.accept t call = ((t.put (Markup.ofCall call)).1, none) :=
        Prod.ext rfl taken
      simp only [feed, accepted]
      rw [← Strip.append_assoc, ← own]
      exact ih _
    · have refused : markup.accept t call = ((t.put (Markup.ofCall call)).1, some fault) :=
        Prod.ext rfl failed
      simp only [feed, refused]
      rw [long]
      rfl

namespace Document

/-- The markup of a document, however long it is. -/
def marked (document : Document) : Strip := .join ((document.trace true).map Markup.ofCall)

theorem markup_eq (document : Document) : document.markup = document.marked.fitting? := by
  by_cases fits : document.Fits
  · rw [markup, Device.render_of_fits _ _ fits]
    have fed := Device.text?_feed_markup .empty (document.trace true)
    rwa [Transcript.text_empty, Strip.empty_append] at fed
  · have long : Text.longest < document.marked.units := by
      obtain ⟨run, joined, long⟩ := exists_long_run fits
      have written : run.text ∈ (document.trace true).filterMap Call.text? := by
        rw [document.texts_trace]
        exact List.mem_map_of_mem joined
      obtain ⟨call, made, text⟩ := List.mem_filterMap.mp written
      have own : Markup.ofCall call = run.text := by
        cases call with
        | write other => exact Option.some.inj text
        | setStyle style => cases text
        | resetStyle => cases text
      have inside : run.text.units ≤ document.marked.units :=
        own ▸ Strip.units_le_join (List.mem_map_of_mem made)
      omega
    rw [markup, Device.render_of_not_fits _ _ fits, Strip.fitting?_of_long long]
    rfl

theorem markup_eq_ok_iff {document : Document} {text : Strip} :
    document.markup = .ok text ↔
      document.marked = text ∧ document.marked.units ≤ Text.longest := by
  rw [document.markup_eq, Strip.fitting?_eq_ok_iff]

theorem marked_congr {a b : Document}
    (h : List.Forall₂ Run.Same (Run.coalesce a.runs) (Run.coalesce b.runs)) :
    a.marked = b.marked :=
  congrArg Strip.join (Markup.ofCall_styledFrom h (SameStyle.refl none))

/-- The joined runs of a document have no characters that its texts do not have. -/
theorem free_trace {document : Document} {c : Char}
    (free : ∀ text ∈ document.texts, c ∉ text.chars) :
    ∀ text ∈ (document.trace true).filterMap Call.text?, c ∉ text.chars := by
  intro text written own
  rw [document.texts_trace] at written
  have all : c ∈ document.texts.flatMap Strip.chars := by
    rw [← document.chars_runs, ← Run.chars_coalesce]
    obtain ⟨run, joined, rfl⟩ := List.mem_map.mp written
    exact List.mem_flatMap.mpr ⟨run, joined, own⟩
  obtain ⟨other, member, inside⟩ := List.mem_flatMap.mp all
  exact free other member inside

/-- The cells of a document can be read off its markup. -/
theorem read_marked {document : Document} (free : ∀ text ∈ document.texts, '\x7b' ∉ text.chars) :
    Markup.read none document.marked.chars =
      (Screen.blank.replay (document.trace true)).cells.map Cell.named := by
  have spelled : document.marked.chars =
      (document.trace true).flatMap fun call => (Markup.ofCall call).chars := by
    rw [marked, Strip.chars_join, List.flatMap_map]
  rw [spelled]
  exact Markup.read_ofCalls .blank (free_trace free)

theorem sameCells_of_marked {a b : Document} (ha : ∀ text ∈ a.texts, '\x7b' ∉ text.chars)
    (hb : ∀ text ∈ b.texts, '\x7b' ∉ text.chars) (h : a.marked = b.marked) :
    SameCells a.cells b.cells := by
  have read : Markup.read none a.marked.chars = Markup.read none b.marked.chars := by rw [h]
  rw [read_marked ha, read_marked hb] at read
  exact (a.replay_trace.1.symm.trans (sameCells_of_named read)).trans b.replay_trace.1

/-- What has markup has joined runs. -/
theorem fits_of_markup {document : Document} {text : Strip} (h : document.markup = .ok text) :
    document.Fits := by
  by_contra long
  rw [markup, Device.render_of_not_fits _ _ long] at h
  cases h

end Document

/-- Markup says all there is to say. A document whose texts have no opening brace has markup
unless that is too long for a text. Another such document has the same markup exactly when
its joined runs are the same, text by text and up to what their styles set; so the markup
tells every character of a document and what is set for it. -/
theorem markup_tells_text (a b : Document) (ha : ∀ text ∈ a.texts, '\x7b' ∉ text.chars)
    (hb : ∀ text ∈ b.texts, '\x7b' ∉ text.chars) :
    ((∃ text, a.markup = .ok text) ↔ a.marked.units ≤ Text.longest) ∧
    (∀ fault, a.markup = .error fault → fault = .tooLong) ∧
    ∀ text, a.markup = .ok text →
      (b.markup = .ok text ↔ ∃ runs others, Run.coalesce? a.runs = .ok runs ∧
        Run.coalesce? b.runs = .ok others ∧ List.Forall₂ Run.Same runs others) ∧
      (b.markup = .ok text ↔ SameCells a.cells b.cells) := by
  refine ⟨?fits, ?fault, fun text marked => ?same⟩
  case fits =>
    rw [a.markup_eq]
    exact Strip.exists_fitting?_iff
  case fault =>
    intro fault failed
    rw [a.markup_eq] at failed
    exact (Strip.fitting?_eq_error_iff.mp failed).1
  case same =>
    obtain ⟨own, short⟩ := Document.markup_eq_ok_iff.mp marked
    have cells_iff : SameCells a.cells b.cells ↔
        List.Forall₂ Run.Same (Run.coalesce a.runs) (Run.coalesce b.runs) := by
      have runs (document : Document) : document.runs.flatMap Run.cells = document.cells :=
        Document.flatMap_cells_runsUnder none document
      rw [Run.same_coalesce_iff, runs, runs]
    have markup_iff : b.markup = .ok text ↔ SameCells a.cells b.cells := by
      rw [Document.markup_eq_ok_iff, ← own]
      constructor
      · rintro ⟨same, _⟩
        exact Document.sameCells_of_marked ha hb same.symm
      · intro same
        rw [← Document.marked_congr (cells_iff.mp same)]
        exact ⟨rfl, short⟩
    refine ⟨⟨fun marked' => ?_, ?_⟩, markup_iff⟩
    · exact ⟨_, _, Run.coalesce?_of_fits (Document.fits_of_markup marked),
        Run.coalesce?_of_fits (Document.fits_of_markup marked'),
        cells_iff.mp (markup_iff.mp marked')⟩
    · rintro ⟨runs, others, joined, joined', same⟩
      obtain ⟨_, rfl⟩ := Run.coalesce?_eq_ok_iff.mp joined
      obtain ⟨_, rfl⟩ := Run.coalesce?_eq_ok_iff.mp joined'
      exact markup_iff.mpr (cells_iff.mpr same)

/-! ## Documents that are built in different ways -/

namespace Sample

/-- What `styledDocument` shows, without its empty text and inner regions. -/
def flatDocument : Document := [.text "a", .styled alsoBold [.text "bc"], .text "\n"]

/-- Two runs that are texts, but not one text together. -/
def wideDocument : Document :=
  [.text (.repeated Text.longest ' '), .styled bold [.text "a"]]

end Sample

theorem markup_tells_text_sample :
    (∀ text ∈ Sample.styledDocument.texts, '\x7b' ∉ text.chars) ∧
      (∀ text ∈ Sample.flatDocument.texts, '\x7b' ∉ text.chars) ∧
      Sample.styledDocument.markup = .ok "a\x7bbold\x7dbc\x7b/\x7d\n" ∧
      Sample.flatDocument.markup = .ok "a\x7bbold\x7dbc\x7b/\x7d\n" ∧
      SameCells Sample.styledDocument.cells Sample.flatDocument.cells := by
  have free : ∀ text ∈ Sample.styledDocument.texts, '\x7b' ∉ text.chars := by decide +kernel
  have free' : ∀ text ∈ Sample.flatDocument.texts, '\x7b' ∉ text.chars := by decide +kernel
  have marked : Sample.styledDocument.markup = .ok "a\x7bbold\x7dbc\x7b/\x7d\n" := by
    decide +kernel
  have marked' : Sample.flatDocument.markup = .ok "a\x7bbold\x7dbc\x7b/\x7d\n" := by
    decide +kernel
  have same := (markup_tells_text Sample.styledDocument Sample.flatDocument free free').2.2 _ marked
  exact ⟨free, free', marked, marked', same.2.mp marked'⟩

/-- A document with joined runs and without opening braces that has no markup. -/
theorem long_markup_refused :
    (∀ text ∈ Sample.wideDocument.texts, '\x7b' ∉ text.chars) ∧
      Run.coalesce? Sample.wideDocument.runs =
        .ok [⟨none, .repeated Text.longest ' '⟩, ⟨some Sample.bold, "a"⟩] ∧
      Sample.wideDocument.markup = .error .tooLong := by
  refine ⟨?_, by decide +kernel, by decide +kernel⟩
  have texts : Sample.wideDocument.texts =
      [Strip.repeated Text.longest ' ', Strip.ofString "a"] := rfl
  rw [texts]
  intro text member brace
  rcases List.mem_pair.mp member with rfl | rfl
  · rw [Strip.chars_repeated] at brace
    exact absurd (List.eq_of_mem_replicate brace) (by decide)
  · exact absurd brace (by decide)

end Excerpt
