import Excerpt.Device.Terminal
import Excerpt.Proofs.Ansi.Display

/-! What painted text shows: each character with the attributes it is painted with, but line
ends with none; nothing is left selected behind it. -/
namespace Excerpt

namespace Rendition

/-- The attributes that a style sets. -/
def ofStyle (s : Style) : Rendition where
  foreground := s.foreground
  bold := s.bold == some true
  dim := s.dim == some true
  italic := s.italic == some true
  underline := s.underline == some true

/-- Without a style nothing is set. -/
def ofStyle? (style : Option Style) : Rendition := style.elim plain ofStyle

theorem select_openCode (r : Rendition) (color : Color) :
    r.select (Ansi.openCode (.foreground color)) = { r with foreground := some color } := by
  cases color <;> rfl

/-- Switching the attributes of a style on one by one selects them all. -/
theorem select_opens (s : Style) :
    s.attributes.foldl (fun r a => r.select (Ansi.openCode a)) plain = ofStyle s := by
  obtain ⟨foreground, bold, dim, italic, underline⟩ := s
  have color : (foreground.map Attribute.foreground).toList.foldl
      (fun r a => r.select (Ansi.openCode a)) plain = { plain with foreground } := by
    cases foreground with
    | none => rfl
    | some color => exact select_openCode plain color
  simp only [Style.attributes, List.foldl_append, color]
  by_cases hb : bold = some true <;> by_cases hd : dim = some true <;>
    by_cases hi : italic = some true <;> by_cases hu : underline = some true <;>
    simp [ofStyle, plain, select, Ansi.openCode, hb, hd, hi, hu]

/-- Switching them off in the opposite order leaves nothing selected. -/
theorem select_closes (s : Style) :
    s.attributes.reverse.foldl (fun r a => r.select (Ansi.closeCode a)) (ofStyle s) = plain := by
  obtain ⟨foreground, bold, dim, italic, underline⟩ := s
  have color : (foreground.map Attribute.foreground).toList.foldr
      (fun a r => r.select (Ansi.closeCode a)) { plain with foreground } = plain := by
    cases foreground <;> rfl
  rw [List.foldl_reverse]
  simp only [Style.attributes, List.foldr_append]
  refine (congrArg (fun r => List.foldr _ r (foreground.map Attribute.foreground).toList) ?_).trans
    color
  by_cases hb : bold = some true <;> by_cases hd : dim = some true <;>
    by_cases hi : italic = some true <;> by_cases hu : underline = some true <;>
    simp [ofStyle, plain, select, Ansi.closeCode, hb, hd, hi, hu]

theorem ofStyle?_congr {a b : Option Style} (h : SameStyle a b) : ofStyle? a = ofStyle? b := by
  cases a with
  | none =>
    cases b with
    | none => rfl
    | some b => cases h
  | some a =>
    cases b with
    | none => cases h
    | some b =>
      have same : a.attributes = b.attributes := Option.some.inj h
      exact (select_opens a).symm.trans (same ▸ select_opens b)

/-- How text is shown that is painted with some attributes. Line feeds, and carriage returns
in front of them, are shown without. -/
def glyphs (on : Rendition) : List Char → List Glyph
  | [] => []
  | '\r' :: '\n' :: cs => ('\r', plain) :: ('\n', plain) :: glyphs on cs
  | '\n' :: cs => ('\n', plain) :: glyphs on cs
  | c :: cs => (c, on) :: glyphs on cs

theorem glyphs_plain (cs : List Char) : plain.glyphs cs = cs.map (·, plain) := by
  fun_induction glyphs plain cs with
  | case1 => rfl
  | case2 cs ih => rw [ih]; rfl
  | case3 cs ih => rw [ih]; rfl
  | case4 c cs _ _ ih => rw [ih]; rfl

end Rendition

namespace Shows

theorem openAll (s : Style) : Shows .plain (Ansi.openAll s.attributes) [] (.ofStyle s) :=
  Rendition.select_opens s ▸ Shows.sequences .plain Ansi.openCode s.attributes

theorem closeAll (s : Style) : Shows (.ofStyle s) (Ansi.closeAll s.attributes) [] .plain :=
  Rendition.select_closes s ▸ Shows.sequences (.ofStyle s) Ansi.closeCode s.attributes.reverse

/-- Attributes are off at the line ends of a text. -/
theorem breakAtLineEnds {on : Rendition} {closing opening cs : List Char}
    (close : Shows on closing [] .plain) (open_again : Shows .plain opening [] on)
    (free : '\x1b' ∉ cs) :
    Shows on (Ansi.breakAtLineEnds closing opening cs) (on.glyphs cs) on := by
  fun_induction Rendition.glyphs on cs with
  | case1 => exact .nil on
  | case2 cs ih =>
    simp only [List.mem_cons, not_or] at free
    have line_end : Shows .plain ['\r', '\n'] [('\r', .plain), ('\n', .plain)] .plain :=
      .text (by decide) fun _ => rfl
    have whole := close.append (line_end.append (open_again.append (ih free.2.2)))
    simpa [Ansi.breakAtLineEnds] using whole
  | case3 cs ih =>
    simp only [List.mem_cons, not_or] at free
    have line_end : Shows .plain ['\n'] [('\n', .plain)] .plain := .char (by decide) fun _ => rfl
    have whole := close.append (line_end.append (open_again.append (ih free.2)))
    simpa [Ansi.breakAtLineEnds] using whole
  | case4 c cs no_pair no_feed ih =>
    simp only [List.mem_cons, not_or] at free
    have own : Shows on [c] [(c, on)] on := .char (Ne.symm free.1) fun feed => absurd feed no_feed
    have step : Ansi.breakAtLineEnds closing opening (c :: cs) =
        c :: Ansi.breakAtLineEnds closing opening cs := by
      rw [Ansi.breakAtLineEnds] <;> assumption
    rw [step]
    exact own.append (ih free.2)

theorem paintChars (s : Style) {cs : List Char} (free : '\x1b' ∉ cs) :
    Shows .plain (Ansi.paintChars s.attributes cs) ((Rendition.ofStyle s).glyphs cs) .plain := by
  rw [Ansi.paintChars]
  split
  · rename_i bare
    rcases bare with rfl | none_set
    · exact .nil .plain
    · have own : Rendition.ofStyle s = .plain := by
        rw [← Rendition.select_opens, none_set]
        rfl
      rw [own, Rendition.glyphs_plain]
      exact .text free fun _ => rfl
  · have whole := (openAll s).append ((breakAtLineEnds (closeAll s) (openAll s) free).append
      (closeAll s))
    simpa using whole

end Shows

/-- How a run is shown. -/
def Run.glyphs (run : Run) : List Glyph := (Rendition.ofStyle? run.style).glyphs run.text.chars

theorem Run.shows_painted (run : Run) (free : '\x1b' ∉ run.text.chars) :
    Shows .plain (Terminal.painted .basic run.style run.text).chars run.glyphs .plain := by
  obtain ⟨_ | style, text⟩ := run
  · show Shows .plain text.chars (Rendition.plain.glyphs text.chars) .plain
    rw [Rendition.glyphs_plain]
    exact .text free fun _ => rfl
  · show Shows .plain (Ansi.paint style.attributes text).chars _ .plain
    rw [Ansi.chars_paint]
    exact .paintChars style free

end Excerpt
