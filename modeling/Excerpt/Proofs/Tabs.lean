import Excerpt.Proofs.Number.Order
import Excerpt.Proofs.Number.Rounding
import Excerpt.Proofs.Text.Utf16

/-! Columns add up wherever a text is cut, unless the cut parts the halves of a character, and the
text that is shown for it without its tabs is as long as the columns it takes up. In binary64 this
is so as long as no column is rounded; the shown text is the same in any case, because it is
refused before a column of it could be. -/
namespace Excerpt.Columns

open Number (exactLimit)
open Utf16 (Units Point Joins points decode Settled)

/-- The unit of a tab. -/
def tabUnit : UInt16 := 0x0009

/-- Code points, and what they become when a stretch of spaces takes the place of each tab. -/
inductive Untabbed : List Point → List Point → Prop
  | nil : Untabbed [] []
  | tab {ps shown : List Point} {count : Nat} (wide : 0 < count) (rest : Untabbed ps shown) :
      Untabbed (.char '\t' :: ps) (List.replicate count (.char ' ') ++ shown)
  | other {p : Point} {ps shown : List Point} (plain : p ≠ .char '\t') (rest : Untabbed ps shown) :
      Untabbed (p :: ps) (p :: shown)

theorem Untabbed.tabless {ps shown : List Point} (h : Untabbed ps shown) :
    .char '\t' ∉ shown := by
  induction h with
  | nil => exact List.not_mem_nil
  | tab wide _ ih =>
    rw [List.mem_append, List.mem_replicate]
    rintro (⟨_, space⟩ | later)
    · cases space
    · exact ih later
  | other plain _ ih =>
    rw [List.mem_cons]
    rintro (own | later)
    · exact plain own.symm
    · exact ih later

theorem Untabbed.eq_of_tabless {ps shown : List Point} (h : Untabbed ps shown)
    (tabless : .char '\t' ∉ ps) : shown = ps := by
  induction h with
  | nil => rfl
  | tab _ _ _ => exact absurd List.mem_cons_self tabless
  | other _ _ ih => rw [ih fun later => tabless (List.mem_cons_of_mem _ later)]

/-- A tab keeps the halves on its sides apart, and so do the spaces in its place. -/
theorem Untabbed.settled {ps shown : List Point} (h : Untabbed ps shown) (settled : Settled ps) :
    Settled shown ∧ ∀ unit, .half unit ∈ shown.head? → .half unit ∈ ps.head? := by
  induction h with
  | nil => exact ⟨settled, fun _ first => first⟩
  | @tab ps shown count wide _ ih =>
    refine ⟨(ih settled.tail).1.append_chars count ' ', ?_⟩
    intro unit first
    obtain ⟨n, rfl⟩ := Nat.exists_eq_succ_of_ne_zero (Nat.ne_of_gt wide)
    cases first
  | @other p ps shown _ _ ih =>
    obtain ⟨behind, first⟩ := ih settled.tail
    refine ⟨behind.cons ?_ ?_, fun unit first => first⟩
    · exact fun unit own => settled.halves unit (own ▸ List.mem_cons_self)
    · rintro q next ⟨high, low, own, rfl, halves⟩
      exact (List.isChain_cons.mp settled.apart).1 (.half low) (first low next)
        ⟨high, low, own, rfl, halves⟩

section

variable {α : Type} [Add α] [Sub α] [Mod α] [OfNat α 0] [OfNat α 1] [NatCast α]

/-- How the columns of a text add up wherever it is cut, but inside of a character: what is behind
a front of it starts in the column in which the front ends, each code point takes up a column at
least, and each tab leads to a tab stop, over a column at least and a tab width at most. -/
structure Measured [LE α] (tabWidth start : α) (text : Units) : Prop where
  append : ∀ front rest, front ++ rest = text → ¬Joins front rest →
    unitsWidthFrom tabWidth start text = unitsWidthFrom tabWidth start front +
      unitsWidthFrom tabWidth (start + unitsWidthFrom tabWidth start front) rest
  length_le : ((points text).length : α) ≤ unitsWidthFrom tabWidth start text
  tab : ∀ front rest, front ++ tabUnit :: rest = text →
    (start + unitsWidthFrom tabWidth start (front ++ [tabUnit])) % tabWidth = 0 ∧
    1 ≤ unitsWidthFrom tabWidth (start + unitsWidthFrom tabWidth start front) [tabUnit] ∧
    unitsWidthFrom tabWidth (start + unitsWidthFrom tabWidth start front) [tabUnit] ≤ tabWidth

variable [Coordinate α]

/-- The text that is shown for another one: it has spaces in place of the tabs, it has as many
code points as the other takes up columns, and it starts with what is shown for each front. -/
structure Expanded (tabWidth : α) (text shown : Units) : Prop where
  built : expandUnits? tabWidth text = .ok shown
  untabbed : Untabbed (points text) (points shown)
  tabless : .char '\t' ∉ points shown
  length : ((points shown).length : α) = unitsWidthFrom tabWidth 0 text
  front : ∀ front rest, front ++ rest = text →
    ∃ part, expandUnits? tabWidth front = .ok part ∧ part <+: shown
  bare : .char '\t' ∉ points text → shown = text

/-- A text of characters is measured and expanded like its units. -/
structure ReadAs (tabWidth start : α) (chars : String) (text : Units) : Prop where
  width : widthFrom tabWidth start chars = unitsWidthFrom tabWidth start text
  expand : (expand? tabWidth chars).map (fun shown => Utf16.encode shown.chars) =
    expandUnits? tabWidth text

theorem toChar_eq_tab_iff (p : Point) : p.toChar = '\t' ↔ p = .char '\t' := by
  cases p with
  | char c => simp [Point.toChar]
  | half unit => simp [Point.toChar]

omit [OfNat α 0] [NatCast α] in
theorem toChar_expandPointsFrom (tabWidth column : α) (ps : List Point) :
    (expandPointsFrom tabWidth column ps).map Point.toChar =
      (expandFrom tabWidth column (ps.map Point.toChar)).chars := by
  induction ps generalizing column with
  | nil => rfl
  | cons p ps ih =>
    rw [expandPointsFrom, List.map_cons, expandFrom, List.map_append, ih]
    split
    · rw [Strip.chars_push, List.map_replicate]
      rfl
    · rw [Strip.chars_push]
      rfl

omit [NatCast α] in
theorem length_expandUnits (tabWidth : α) (text : Units) :
    (expandUnits tabWidth text).length =
      (expandFrom tabWidth 0 (decode text)).units := by
  rw [expandUnits, ← Utf16.unitsOf_toChar, toChar_expandPointsFrom, Strip.units_eq]
  rfl

omit [OfNat α 0] [NatCast α] in
theorem expandPointsFrom_char (tabWidth column : α) (cs : List Char) :
    expandPointsFrom tabWidth column (cs.map .char) =
      (expandFrom tabWidth column cs).chars.map .char := by
  induction cs generalizing column with
  | nil => rfl
  | cons c cs ih =>
    rw [List.map_cons, expandPointsFrom, ih, expandFrom]
    show (if c = '\t' then _ else _) ++ _ = _
    split
    · rw [Strip.chars_push, List.map_append, List.map_replicate]
      rfl
    · rw [Strip.chars_push, List.map_append]
      rfl

omit [NatCast α] in
theorem readAs_encode (tabWidth start : α) (chars : String) :
    ReadAs tabWidth start chars (Utf16.encode chars.toList) where
  width := by
    rw [unitsWidthFrom, Utf16.decode_encode]
    rfl
  expand := by
    rw [expandUnits?, Utf16.decode_encode, expandUnits, Utf16.points_encode,
      expandPointsFrom_char, List.flatMap_map, expand?, fault?]
    cases faultFrom? tabWidth 0 0 chars.toList <;> rfl

omit [OfNat α 0] [NatCast α] in
theorem faultFrom?_cons_eq_none_iff (tabWidth column : α) (units : Nat) (c : Char)
    (cs : List Char) : faultFrom? tabWidth units column (c :: cs) = none ↔
      let next := advance tabWidth column c
      let more := if c = '\t' then Coordinate.toCount (next - column) else Text.charUnits c
      (c = '\t' → Coordinate.fault? (next - column) = none) ∧ units + more ≤ Text.longest ∧
        faultFrom? tabWidth (units + more) next cs = none := by
  have room {p : Prop} [Decidable p] (rest : Option TextFault) :
      (if p then rest else some .tooLong) = none ↔ p ∧ rest = none := by
    split <;> simp [*]
  rw [faultFrom?]
  by_cases tab : c = '\t'
  · simp only [tab, if_true, forall_const]
    cases Coordinate.fault? (advance tabWidth column '\t' - column) with
    | some fault => simp
    | none => simpa using room _
  · simp only [tab, if_false, false_implies, true_and]
    exact room _

end

/-! ## In exact arithmetic -/

variable {tabWidth : Nat}

theorem add_unitsWidthFrom (pos : 0 < tabWidth) (start : Nat) (text : Units) :
    start + unitsWidthFrom tabWidth start text = endOf tabWidth start (decode text) := by
  have later := le_endOf pos start (decode text)
  rw [unitsWidthFrom]
  omega

theorem unitsWidthFrom_append (pos : 0 < tabWidth) (start : Nat) {front rest : Units}
    (apart : ¬Joins front rest) :
    unitsWidthFrom tabWidth start (front ++ rest) = unitsWidthFrom tabWidth start front +
      unitsWidthFrom tabWidth (start + unitsWidthFrom tabWidth start front) rest := by
  have whole := add_unitsWidthFrom pos start (front ++ rest)
  have later := add_unitsWidthFrom pos (start + unitsWidthFrom tabWidth start front) rest
  rw [Utf16.decode_append apart, endOf_append, ← add_unitsWidthFrom pos start front] at whole
  omega

theorem length_le_unitsWidthFrom (pos : 0 < tabWidth) (start : Nat) (text : Units) :
    (points text).length ≤ unitsWidthFrom tabWidth start text := by
  have later := le_endOf pos start (decode text)
  have whole := add_unitsWidthFrom pos start text
  rw [decode, List.length_map] at later
  rw [decode] at whole
  omega

/-- A tab leads to the next multiple of the tab width. -/
theorem advance_tab (pos : 0 < tabWidth) (column : Nat) :
    advance tabWidth column '\t' = tabWidth * (column / tabWidth + 1) := by
  have inside := Nat.mod_lt column pos
  have parts := Nat.div_add_mod column tabWidth
  have own : advance tabWidth column '\t' = column + (tabWidth - column % tabWidth) := rfl
  rw [own, Nat.mul_add, Nat.mul_one]
  omega

/-- A tab is no half, so it can be cut off on both sides. -/
theorem not_joins_tab (front rest : Units) :
    ¬Joins front (tabUnit :: rest) ∧ ¬Joins (front ++ [tabUnit]) rest := by
  constructor
  · rintro ⟨_, _, low, first, _, half⟩
    obtain rfl := Option.some.inj first
    cases half
  · rintro ⟨high, last, _, _, half, _⟩
    rw [List.getLast?_concat] at last
    obtain rfl := Option.some.inj last
    cases half

theorem unitsWidthFrom_tab (start : Nat) :
    unitsWidthFrom tabWidth start [tabUnit] = tabWidth - start % tabWidth := by
  have own : endOf tabWidth start (decode [tabUnit]) = start + (tabWidth - start % tabWidth) := rfl
  rw [unitsWidthFrom, own, Nat.add_sub_cancel_left]

theorem measured (pos : 0 < tabWidth) (start : Nat) (text : Units) :
    Measured tabWidth start text where
  append front rest h apart := h ▸ unitsWidthFrom_append pos start apart
  length_le := length_le_unitsWidthFrom pos start text
  tab front rest _ := by
    have inside := Nat.mod_lt (start + unitsWidthFrom tabWidth start front) pos
    have stop : start + unitsWidthFrom tabWidth start (front ++ [tabUnit]) =
        advance tabWidth (start + unitsWidthFrom tabWidth start front) '\t' := by
      rw [add_unitsWidthFrom pos, add_unitsWidthFrom pos,
        Utf16.decode_append (not_joins_tab front []).1, endOf_append]
      rfl
    rw [stop, advance_tab pos, unitsWidthFrom_tab]
    exact ⟨Nat.mul_mod_right _ _, by omega, Nat.sub_le _ _⟩

theorem untabbed_expandPointsFrom (pos : 0 < tabWidth) (column : Nat) (ps : List Point) :
    Untabbed ps (expandPointsFrom tabWidth column ps) := by
  induction ps generalizing column with
  | nil => exact .nil
  | cons p ps ih =>
    rw [expandPointsFrom]
    split
    · rename_i tab
      have step := lt_advance pos column '\t'
      rw [(toChar_eq_tab_iff p).mp tab]
      exact .tab (Nat.sub_pos_of_lt step) (ih _)
    · rename_i plain
      exact .other (mt (toChar_eq_tab_iff p).mpr plain) (ih _)

theorem points_expandUnits (pos : 0 < tabWidth) (text : Units) :
    points (expandUnits tabWidth text) = expandPointsFrom tabWidth 0 (points text) :=
  Utf16.points_units
    ((untabbed_expandPointsFrom pos 0 (points text)).settled (Utf16.settled_points text)).1

theorem expandUnits?_eq_ok {text : Units}
    (fits : (expandUnits tabWidth text).length ≤ Text.longest) :
    expandUnits? tabWidth text = .ok (expandUnits tabWidth text) := by
  rw [length_expandUnits] at fits
  rw [expandUnits?, (faultFrom?_eq_none_iff tabWidth 0 0 _ (Nat.zero_le _)).mpr]
  rwa [Nat.zero_add]

theorem expandPointsFrom_append (tabWidth column : Nat) (front rest : List Point) :
    expandPointsFrom tabWidth column (front ++ rest) =
      expandPointsFrom tabWidth column front ++
        expandPointsFrom tabWidth (endOf tabWidth column (front.map Point.toChar)) rest := by
  induction front generalizing column with
  | nil => rfl
  | cons p ps ih =>
    rw [List.cons_append, expandPointsFrom, expandPointsFrom, ih, List.append_assoc]
    rfl

theorem expandPointsFrom_plain {p : Point} (plain : p ≠ .char '\t') (column : Nat)
    (ps : List Point) : expandPointsFrom tabWidth column (p :: ps) =
      p :: expandPointsFrom tabWidth (advance tabWidth column p.toChar) ps := by
  rw [expandPointsFrom, if_neg (mt (toChar_eq_tab_iff p).mp plain)]
  rfl

/-- What is shown for a front of a text is a front of what is shown for the text, also if it ends
in the first half of a character. -/
theorem expandUnits_prefix (front rest : Units) :
    expandUnits tabWidth front <+: expandUnits tabWidth (front ++ rest) := by
  by_cases cut : Joins front rest
  · obtain ⟨high, low, before, after, isHigh, isLow, own, _, whole⟩ := Utf16.points_of_joins cut
    have halves : (Point.char (Utf16.joinHalves high low)).units = [high, low] :=
      Utf16.encodeChar_joinHalves isHigh isLow
    have plain : Point.char (Utf16.joinHalves high low) ≠ .char '\t' := by
      intro tab
      rw [tab] at halves
      cases halves
    have alone : Point.half high ≠ .char '\t' := Point.noConfusion
    rw [expandUnits, expandUnits, own, whole, expandPointsFrom_append, expandPointsFrom_append,
      expandPointsFrom_plain alone, expandPointsFrom_plain plain, List.flatMap_append,
      List.flatMap_append, List.prefix_append_right_inj, List.flatMap_cons, List.flatMap_cons,
      halves]
    exact (List.prefix_cons_inj high).mpr List.nil_prefix
  · rw [expandUnits, expandUnits, Utf16.points_append cut, expandPointsFrom_append,
      List.flatMap_append]
    exact List.prefix_append _ _

theorem length_points_expandUnits (pos : 0 < tabWidth) (text : Units) :
    (points (expandUnits tabWidth text)).length = unitsWidthFrom tabWidth 0 text := by
  have whole := add_unitsWidthFrom pos 0 text
  rw [points_expandUnits pos, ← List.length_map Point.toChar, toChar_expandPointsFrom]
  have long := length_expandFrom pos 0 ((points text).map Point.toChar)
  rw [← decode] at long ⊢
  omega

theorem expanded (pos : 0 < tabWidth) {text : Units}
    (fits : (expandUnits tabWidth text).length ≤ Text.longest) :
    Expanded tabWidth text (expandUnits tabWidth text) where
  built := expandUnits?_eq_ok fits
  untabbed := by
    rw [points_expandUnits pos]
    exact untabbed_expandPointsFrom pos 0 (points text)
  tabless := by
    rw [points_expandUnits pos]
    exact (untabbed_expandPointsFrom pos 0 (points text)).tabless
  length := length_points_expandUnits pos text
  front := by
    rintro front rest rfl
    have inside : expandUnits tabWidth front <+: expandUnits tabWidth (front ++ rest) :=
      expandUnits_prefix front rest
    exact ⟨_, expandUnits?_eq_ok (Nat.le_trans inside.length_le fits), inside⟩
  bare tabless := by
    rw [expandUnits, (untabbed_expandPointsFrom pos 0 (points text)).eq_of_tabless tabless,
      Utf16.units_points]

/-! ## In binary64 -/

theorem unitsWidthFrom_natCast (pos : 0 < tabWidth) {start : Nat} {text : Units}
    (h : start + unitsWidthFrom tabWidth start text ≤ exactLimit) :
    unitsWidthFrom (tabWidth : Number) (start : Number) text =
      ((unitsWidthFrom tabWidth start text : Nat) : Number) := by
  have later := le_endOf pos start (decode text)
  rw [add_unitsWidthFrom pos] at h
  rw [unitsWidthFrom, endOf_natCast pos h, Number.sub_natCast (by omega) (by omega),
    unitsWidthFrom]

/-- No column of a text is rounded if the one behind it is not beyond the greatest exact
number, so columns add up as they do in exact arithmetic. -/
theorem measured_natCast (pos : 0 < tabWidth) {start : Nat} {text : Units}
    (h : start + unitsWidthFrom tabWidth start text ≤ exactLimit) :
    Measured (tabWidth : Number) (start : Number) text := by
  have law := measured pos start text
  have front_le {front rest : Units} (cut : front ++ rest = text) (apart : ¬Joins front rest) :
      start + unitsWidthFrom tabWidth start front +
        unitsWidthFrom tabWidth (start + unitsWidthFrom tabWidth start front) rest ≤
          exactLimit := by
    rw [law.append front rest cut apart] at h
    omega
  have ends {front rest : Units} (cut : front ++ rest = text) (apart : ¬Joins front rest) :
      (start : Number) + unitsWidthFrom (tabWidth : Number) (start : Number) front =
        ((start + unitsWidthFrom tabWidth start front : Nat) : Number) := by
    have near := front_le cut apart
    rw [unitsWidthFrom_natCast pos (by omega), Number.add_natCast (by omega)]
  refine ⟨?append, ?length, ?tab⟩
  case append =>
    intro front rest cut apart
    have near := front_le cut apart
    rw [ends cut apart, unitsWidthFrom_natCast pos h, unitsWidthFrom_natCast pos (by omega),
      unitsWidthFrom_natCast pos near, Number.add_natCast (by omega),
      law.append front rest cut apart]
  case length =>
    rw [unitsWidthFrom_natCast pos h]
    exact LinearCoordinate.natCast_le.mpr law.length_le
  case tab =>
    intro front rest cut
    obtain ⟨stop, least, most⟩ := law.tab front rest cut
    obtain ⟨before, behind⟩ := not_joins_tab front rest
    have after : front ++ [tabUnit] ++ rest = text := by rw [← cut, List.append_assoc]; rfl
    have near := front_le after behind
    rw [unitsWidthFrom_append pos _ (not_joins_tab front []).1] at near
    rw [ends after behind, ends cut before, Number.mod_natCast pos,
      unitsWidthFrom_natCast pos (by omega), stop]
    exact ⟨rfl, LinearCoordinate.natCast_le.mpr least, LinearCoordinate.natCast_le.mpr most⟩

/-- A tab behind which a column could be rounded would take up more columns than the longest
text has units, and rounding does not bring them below that again. -/
theorem fault?_of_rounded {column : Nat} {c : Char} (pos : 0 < tabWidth)
    (near : column ≤ Text.longest) (far : exactLimit < advance tabWidth column c) :
    c = '\t' ∧ Coordinate.fault? (advance tabWidth column c - column) ≠ none ∧
      Coordinate.fault? (advance (tabWidth : Number) (column : Number) c - (column : Number)) ≠
        none := by
  have margin : 3 * Text.longest + 1 ≤ exactLimit := by decide
  have behind : column % tabWidth ≤ column := Nat.mod_le _ _
  rw [advance_eq] at far
  by_cases tab : c = '\t'
  · rw [if_pos tab] at far
    refine ⟨tab, ?nat, ?binary⟩
    case nat =>
      rw [advance_eq, if_pos tab, Nat.add_sub_cancel_left, ne_eq, Coordinate.fault?_nat]
      omega
    case binary =>
      have stretch : Number.Reaches (Text.longest + 1 + column)
          ((tabWidth : Number) - ((column % tabWidth : Nat) : Number)) :=
        .of_sub (by omega) (by omega)
      rw [advance, if_pos tab, Number.mod_natCast pos]
      apply Number.Reaches.fault?_ne_none _ (Nat.lt_succ_self _)
      exact (stretch.add (by omega) (Nat.le_add_left _ _)).sub (by omega)
  · rw [if_neg tab] at far
    omega

/-- From a column that is not beyond the longest text, tabs are refused in binary64 when they
are refused in exact arithmetic. -/
theorem faultFrom?_natCast (pos : 0 < tabWidth) (cs : List Char) {units column : Nat}
    (ordered : column ≤ units) (fits : units ≤ Text.longest) :
    faultFrom? (tabWidth : Number) units (column : Number) cs = none ↔
      faultFrom? tabWidth units column cs = none := by
  induction cs generalizing units column with
  | nil => exact Iff.rfl
  | cons c cs ih =>
    have step := lt_advance pos column c
    rw [faultFrom?_cons_eq_none_iff, faultFrom?_cons_eq_none_iff]
    dsimp only
    -- Either the next column is exact in binary64, or both refuse the tab that leads there.
    by_cases exact : advance tabWidth column c ≤ exactLimit
    · have fault : Coordinate.fault? ((advance tabWidth column c - column : Nat) : Number) = none ↔
          Coordinate.fault? (advance tabWidth column c - column) = none := by
        rw [Coordinate.fault?_nat]
        exact Number.fault?_natCast _
      rw [advance_natCast pos c exact, Number.sub_natCast (Nat.le_of_lt step) (by omega),
        Number.toCount_natCast, fault, Coordinate.toCount_nat]
      apply and_congr_right
      intro _
      apply and_congr_right
      intro short
      refine ih ?_ short
      have one : 1 ≤ Text.charUnits c := Text.charUnits_pos c
      by_cases tab : c = '\t'
      · rw [if_pos tab]
        omega
      · rw [if_neg tab, advance_eq, if_neg tab]
        omega
    · obtain ⟨tab, refused, refused'⟩ := fault?_of_rounded pos (by omega) (Nat.lt_of_not_le exact)
      exact iff_of_false (fun h => refused' (h.1 tab)) (fun h => refused (h.1 tab))

theorem faultUnits_natCast (pos : 0 < tabWidth) (text : Units) :
    faultFrom? (tabWidth : Number) 0 0 (decode text) = none ↔
      (expandUnits tabWidth text).length ≤ Text.longest := by
  have same := faultFrom?_natCast pos (decode text) (Nat.le_refl 0) (Nat.zero_le _)
  rw [faultFrom?_eq_none_iff tabWidth 0 0 _ (Nat.zero_le _), Nat.zero_add,
    ← length_expandUnits] at same
  exact same

theorem expandPointsFrom_natCast (pos : 0 < tabWidth) (ps : List Point) {column : Nat}
    (h : endOf tabWidth column (ps.map Point.toChar) ≤ exactLimit) :
    expandPointsFrom (tabWidth : Number) (column : Number) ps =
      expandPointsFrom tabWidth column ps := by
  induction ps generalizing column with
  | nil => rfl
  | cons p ps ih =>
    have step := lt_advance pos column p.toChar
    have later := le_endOf pos (advance tabWidth column p.toChar) (ps.map Point.toChar)
    rw [List.map_cons, endOf] at h
    rw [expandPointsFrom, advance_natCast pos p.toChar (by omega), ih h,
      Number.sub_natCast (Nat.le_of_lt step) (by omega), Number.toCount_natCast,
      expandPointsFrom, Coordinate.toCount_nat]

theorem endOf_le_exactLimit (pos : 0 < tabWidth) {text : Units}
    (fits : (expandUnits tabWidth text).length ≤ Text.longest) :
    endOf tabWidth 0 (decode text) ≤ exactLimit := by
  have margin : Text.longest ≤ exactLimit := by decide
  have long := length_expandFrom pos 0 (decode text)
  have short := Text.length_le_unitsOf (expandFrom tabWidth 0 (decode text)).chars
  rw [length_expandUnits, Strip.units_eq] at fits
  omega

/-- The text without its tabs is the same in binary64, or refused. -/
theorem expandUnits?_natCast (pos : 0 < tabWidth) {text : Units}
    (fits : (expandUnits tabWidth text).length ≤ Text.longest) :
    expandUnits? (tabWidth : Number) text = .ok (expandUnits tabWidth text) := by
  have near := endOf_le_exactLimit pos fits
  rw [expandUnits?, (faultUnits_natCast pos text).mpr fits]
  exact congrArg (fun ps : List Point => Except.ok (ps.flatMap Point.units))
    (expandPointsFrom_natCast pos (points text) near)

theorem expanded_natCast (pos : 0 < tabWidth) {text : Units}
    (fits : (expandUnits tabWidth text).length ≤ Text.longest) :
    Expanded (tabWidth : Number) text (expandUnits tabWidth text) := by
  have exact := expanded pos fits
  refine { exact with built := expandUnits?_natCast pos fits, length := ?length, front := ?front }
  case length =>
    have near := endOf_le_exactLimit pos fits
    have whole := add_unitsWidthFrom pos 0 text
    rw [length_points_expandUnits pos]
    exact (unitsWidthFrom_natCast pos (by omega)).symm
  case front =>
    rintro front rest rfl
    have inside : expandUnits tabWidth front <+: expandUnits tabWidth (front ++ rest) :=
      expandUnits_prefix front rest
    exact ⟨_, expandUnits?_natCast pos (Nat.le_trans inside.length_le fits), inside⟩

theorem expandUnits?_eq_error {α : Type} [Add α] [Sub α] [Mod α] [OfNat α 0] [OfNat α 1]
    [Coordinate α] {tabWidth : α} {text : Units}
    (refused : faultFrom? tabWidth 0 0 (decode text) ≠ none) :
    ∃ fault, expandUnits? tabWidth text = .error fault := by
  obtain ⟨fault, found⟩ := Option.ne_none_iff_exists'.mp refused
  exact ⟨fault, by rw [expandUnits?, found]⟩

/-- Columns add up in exact arithmetic, and in binary64 as far as its numbers are exact, unless a
text is cut inside of a character. Tabs are replaced in the same way in both, unless the text
without them would be longer than any. Texts of characters are measured and expanded like their
units. -/
theorem columns_add_up {tabWidth : Nat} (pos : 0 < tabWidth) (start : Nat) (text : Units) :
    Measured tabWidth start text ∧
    (start + unitsWidthFrom tabWidth start text ≤ exactLimit →
      Measured (tabWidth : Number) (start : Number) text ∧
      unitsWidthFrom (tabWidth : Number) (start : Number) text =
        ((unitsWidthFrom tabWidth start text : Nat) : Number)) ∧
    ((expandUnits tabWidth text).length ≤ Text.longest →
      Expanded tabWidth text (expandUnits tabWidth text) ∧
      Expanded (tabWidth : Number) text (expandUnits tabWidth text)) ∧
    (¬(expandUnits tabWidth text).length ≤ Text.longest →
      (∃ fault, expandUnits? tabWidth text = .error fault) ∧
      ∃ fault, expandUnits? (tabWidth : Number) text = .error fault) ∧
    ∀ chars : String, Utf16.encode chars.toList = text →
      ReadAs tabWidth start chars text ∧
        ReadAs (tabWidth : Number) (start : Number) chars text := by
  refine ⟨measured pos start text, ?near, ?short, ?long, ?chars⟩
  case near =>
    intro near
    exact ⟨measured_natCast pos near, unitsWidthFrom_natCast pos near⟩
  case short =>
    intro fits
    exact ⟨expanded pos fits, expanded_natCast pos fits⟩
  case long =>
    intro long
    constructor
    · apply expandUnits?_eq_error
      rw [ne_eq, faultFrom?_eq_none_iff tabWidth 0 0 _ (Nat.zero_le _), Nat.zero_add,
        ← length_expandUnits]
      exact long
    · apply expandUnits?_eq_error
      exact mt (faultUnits_natCast pos text).mp long
  case chars =>
    rintro chars rfl
    exact ⟨readAs_encode .., readAs_encode ..⟩

/-- A tab behind a letter, the last column of which is the greatest exact number, and a tab that
is wider than any text. -/
theorem columns_add_up_sample :
    Measured ((4 : Nat) : Number) ((9007199254740988 : Nat) : Number) [0x61, tabUnit] ∧
    Expanded ((4 : Nat) : Number) [0x61, tabUnit] [0x61, 0x20, 0x20, 0x20] ∧
    ∃ fault, expandUnits? ((1073741824 : Nat) : Number) [tabUnit] = .error fault := by
  obtain ⟨-, near, short, -⟩ :=
    columns_add_up (by decide : 0 < 4) 9007199254740988 [0x61, tabUnit]
  obtain ⟨-, -, -, long, -⟩ := columns_add_up (by decide : 0 < 1073741824) 0 [tabUnit]
  refine ⟨(near (by decide)).1, (short (by decide)).2, (long ?_).2⟩
  rw [length_expandUnits]
  decide

/-- Behind the greatest exact number columns are rounded away; a fraction of a tab width can be
less than a column; a tab can be wider than any text; and two halves take up a column each, but
one together. -/
theorem columns_rounded :
    widthFrom ((4 : Nat) : Number) ((9007199254740992 : Nat) : Number) "abc" = 0 ∧
    ¬Measured ((4 : Nat) : Number) ((9007199254740992 : Nat) : Number) [0x61, 0x62, 0x63] ∧
    widthFrom (.finite (3 / 2)) (0 : Number) "a\t" = .finite (3 / 2) ∧
    ¬Measured (.finite (3 / 2)) (0 : Number) [0x61, tabUnit] ∧
    expand? ((1073741824 : Nat) : Number) "\t" = .error .tooLong ∧
    (∀ shown, ¬Expanded ((1073741824 : Nat) : Number) [tabUnit] shown) ∧
    unitsWidthFrom 4 0 ([0xD83D] ++ [0xDE00]) = 1 ∧ unitsWidthFrom 4 0 [0xD83D] = 1 ∧
    unitsWidthFrom 4 1 [0xDE00] = 1 := by
  have too_wide : expandUnits? ((1073741824 : Nat) : Number) [tabUnit] = .error .tooLong := by
    decide +kernel
  refine ⟨by decide +kernel, ?rounded, by decide +kernel, ?part, by decide +kernel, ?wide,
    by decide, by decide, by decide⟩
  case rounded =>
    intro law
    exact absurd law.length_le (by decide +kernel)
  case part =>
    intro law
    exact absurd law.length_le (by decide +kernel)
  case wide =>
    intro shown law
    cases too_wide.symm.trans law.built

end Excerpt.Columns
