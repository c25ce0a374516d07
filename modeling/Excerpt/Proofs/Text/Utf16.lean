import Excerpt.Text.Utf16
import Mathlib.Data.List.Chain

/-! Texts of any units. They are told by their code points, which a cut leaves as they are unless
it parts the halves of a character, and they have as many units as the characters that are read. -/
namespace Excerpt.Utf16

theorem isHighHalf_iff {unit : UInt16} :
    isHighHalf unit = true ↔ 0xD800 ≤ unit.toNat ∧ unit.toNat < 0xDC00 := by
  rw [isHighHalf, Bool.and_eq_true, decide_eq_true_eq, decide_eq_true_eq]

theorem isLowHalf_iff {unit : UInt16} :
    isLowHalf unit = true ↔ 0xDC00 ≤ unit.toNat ∧ unit.toNat < 0xE000 := by
  rw [isLowHalf, Bool.and_eq_true, decide_eq_true_eq, decide_eq_true_eq]

theorem toNat_ofNat_of_valid {n : Nat} (h : n.isValidChar) : (Char.ofNat n).toNat = n := by
  rw [Char.ofNat, dif_pos h]
  rfl

theorem units_single (unit : UInt16) : (single unit).units = [unit] := by
  rw [single]
  split
  · rfl
  · rename_i whole
    rw [Bool.or_eq_true, not_or, isHighHalf_iff, isLowHalf_iff] at whole
    have bound := unit.toNat_lt
    have own : (Char.ofNat unit.toNat).toNat = unit.toNat :=
      toNat_ofNat_of_valid (show _ ∨ _ by omega)
    rw [Point.units, encodeChar, own, if_pos bound, UInt16.ofNat_toNat]

/-- A character that is made of two halves makes these halves. -/
theorem encodeChar_joinHalves {high low : UInt16} (first : isHighHalf high = true)
    (second : isLowHalf low = true) : encodeChar (joinHalves high low) = [high, low] := by
  rw [isHighHalf_iff] at first
  rw [isLowHalf_iff] at second
  have own : (joinHalves high low).toNat =
      0x10000 + (high.toNat - 0xD800) * 0x400 + (low.toNat - 0xDC00) :=
    toNat_ofNat_of_valid (show _ ∨ _ by omega)
  have front : 0xD800 + ((joinHalves high low).toNat - 0x10000) / 0x400 = high.toNat := by omega
  have back : 0xDC00 + ((joinHalves high low).toNat - 0x10000) % 0x400 = low.toNat := by omega
  rw [encodeChar, if_neg (by omega), front, back, UInt16.ofNat_toNat, UInt16.ofNat_toNat]

/-- Nothing of a text is lost in its code points. -/
theorem units_points (text : Units) : (points text).flatMap Point.units = text := by
  fun_induction points text with
  | case1 => rfl
  | case2 unit => rw [List.flatMap_singleton, units_single]
  | case3 unit next rest joined ih =>
    rw [Bool.and_eq_true] at joined
    rw [List.flatMap_cons, ih, Point.units, encodeChar_joinHalves joined.1 joined.2]
    rfl
  | case4 unit next rest apart ih =>
    rw [List.flatMap_cons, ih, units_single]
    rfl

theorem charUnits_toChar (p : Point) : Text.charUnits p.toChar = p.units.length := by
  cases p with
  | half unit => rfl
  | char c =>
    rw [Point.toChar, Point.units, Text.charUnits, encodeChar]
    split <;> rfl

theorem unitsOf_toChar (ps : List Point) :
    Text.unitsOf (ps.map Point.toChar) = (ps.flatMap Point.units).length := by
  induction ps with
  | nil => rfl
  | cons p ps ih =>
    rw [List.flatMap_cons, List.length_append, ← ih, ← charUnits_toChar]
    rfl

/-- What is read is the text itself unless a half stands alone in it. -/
theorem encode_decode_iff (text : Units) : encode (decode text) = text ↔ WellFormed text := by
  constructor
  · intro same unit alone
    have chars := congrArg points same
    rw [points_encode] at chars
    rw [← chars] at alone
    obtain ⟨c, _, half⟩ := List.mem_map.mp alone
    cases half
  · intro whole
    have chars : ∀ p ∈ points text, encodeChar p.toChar = p.units := by
      intro p member
      cases p with
      | char c => rfl
      | half unit => exact absurd member (whole unit)
    calc encode (decode text) = (points text).flatMap fun p => encodeChar p.toChar := by
          rw [encode, decode, List.flatMap_map]
      _ = (points text).flatMap Point.units := List.flatMap_congr chars
      _ = text := units_points text

/-! ## Cuts -/

theorem points_append {front back : Units} (apart : ¬Joins front back) :
    points (front ++ back) = points front ++ points back := by
  fun_induction points front with
  | case1 => rfl
  | case2 unit =>
    apply points_cons
    by_cases high : isHighHalf unit = true
    · right
      intro low first
      apply Bool.eq_false_iff.mpr
      intro half
      exact apart ⟨unit, rfl, low, first, high, half⟩
    · exact .inl (Bool.eq_false_iff.mpr high)
  | case3 unit next rest joined ih =>
    rw [List.cons_append, List.cons_append, points, if_pos joined, List.cons_append]
    congr 1
    apply ih
    rintro ⟨high, last, low, first, halves⟩
    refine apart ⟨high, ?_, low, first, halves⟩
    cases rest with
    | nil => cases last
    | cons => exact last
  | case4 unit next rest alone ih =>
    rw [List.cons_append, List.cons_append, points, if_neg alone, List.cons_append]
    congr 1
    apply ih
    rintro ⟨high, last, low, first, halves⟩
    exact apart ⟨high, last, low, first, halves⟩

theorem decode_append {front back : Units} (apart : ¬Joins front back) :
    decode (front ++ back) = decode front ++ decode back := by
  rw [decode, points_append apart, List.map_append]
  rfl

theorem length_decode (text : Units) : (decode text).length = (points text).length :=
  List.length_map _

/-- The code points of a text that is cut in two inside of a character. -/
theorem points_of_joins {front back : Units} (cut : Joins front back) :
    ∃ (high low : UInt16) (before after : List Point),
      isHighHalf high = true ∧ isLowHalf low = true ∧
      points front = before ++ [.half high] ∧ points back = .half low :: after ∧
      points (front ++ back) = before ++ .char (joinHalves high low) :: after := by
  obtain ⟨high, last, low, first, isHigh, isLow⟩ := cut
  obtain ⟨before, rfl⟩ := List.getLast?_eq_some_iff.mp last
  obtain ⟨after, rfl⟩ := List.head?_eq_some_iff.mp first
  have not_low : isLowHalf high = false := by
    have bounds := isHighHalf_iff.mp isHigh
    apply Bool.eq_false_iff.mpr
    rw [ne_eq, isLowHalf_iff]
    omega
  have not_high : isHighHalf low = false := by
    have bounds := isLowHalf_iff.mp isLow
    apply Bool.eq_false_iff.mpr
    rw [ne_eq, isHighHalf_iff]
    omega
  have apart (rest : Units) : ¬Joins before (high :: rest) := by
    rintro ⟨_, _, next, own, _, half⟩
    rw [← Option.some.inj own, not_low] at half
    cases half
  refine ⟨high, low, points before, points after, isHigh, isLow, ?front, ?back, ?whole⟩
  case front =>
    rw [points_append (apart []), points, single, isHigh]
    rfl
  case back =>
    rw [points_cons (.inl not_high), single, isLow, Bool.or_true]
    rfl
  case whole =>
    rw [List.append_assoc, List.singleton_append, points_append (apart _), points,
      if_pos (by rw [isHigh, isLow]; rfl)]

/-- A character that is cut in two is read as two. -/
theorem length_decode_append_lt {front back : Units} (cut : Joins front back) :
    (decode (front ++ back)).length < (decode front).length + (decode back).length := by
  obtain ⟨_, _, before, after, _, _, first, second, whole⟩ := points_of_joins cut
  rw [length_decode, length_decode, length_decode, first, second, whole]
  simp only [List.length_append, List.length_cons, List.length_nil]
  omega

theorem length_decode_append_le (front back : Units) :
    (decode (front ++ back)).length ≤ (decode front).length + (decode back).length := by
  by_cases cut : Joins front back
  · exact Nat.le_of_lt (length_decode_append_lt cut)
  · rw [decode_append cut, List.length_append]

theorem length_decode_flatten_le (texts : List Units) :
    (decode texts.flatten).length ≤ (texts.flatMap decode).length := by
  induction texts with
  | nil => exact Nat.le_refl _
  | cons text texts ih =>
    have own := length_decode_append_le text texts.flatten
    rw [List.flatten_cons, List.flatMap_cons, List.length_append]
    omega

theorem Uncut.tail {text : Units} {texts : List Units} (h : Uncut (text :: texts)) :
    Uncut texts := by
  rintro front back rfl ⟨high, last, joined⟩
  apply h (text :: front) back rfl
  refine ⟨high, ?_, joined⟩
  rw [List.flatten_cons, List.getLast?_append, last]
  rfl

theorem Uncut.of_prefix {front texts : List Units} (h : Uncut texts) (part : front <+: texts) :
    Uncut front := by
  obtain ⟨rest, rfl⟩ := part
  rintro own back rfl ⟨high, last, low, first, halves⟩
  apply h own (back ++ rest) (List.append_assoc _ _ _).symm
  refine ⟨high, last, low, ?_, halves⟩
  rw [List.flatten_append, List.head?_append, first]
  rfl

/-- Texts that are read one by one are read as they are together unless a character is cut. -/
theorem decode_flatten_iff (texts : List Units) :
    decode texts.flatten = texts.flatMap decode ↔ Uncut texts := by
  constructor
  · rintro same front back rfl cut
    have length := congrArg List.length same
    have front_le := length_decode_flatten_le front
    have back_le := length_decode_flatten_le back
    have shorter := length_decode_append_lt cut
    rw [List.flatten_append, List.flatMap_append, List.length_append] at length
    omega
  · intro uncut
    induction texts with
    | nil => rfl
    | cons text texts ih =>
      have apart : ¬Joins text texts.flatten := by
        have own := uncut [text] texts rfl
        rw [List.flatten_singleton] at own
        exact own
      rw [List.flatten_cons, decode_append apart, ih uncut.tail, List.flatMap_cons]

/-! ## Code points that are a text -/

/-- Two halves that would be joined. -/
def Point.Joins (p q : Point) : Prop :=
  ∃ high low, p = .half high ∧ q = .half low ∧ isHighHalf high = true ∧ isLowHalf low = true

/-- Halves are halves, and none of them would be joined with the next one. -/
structure Settled (ps : List Point) : Prop where
  halves : ∀ unit, .half unit ∈ ps → (isHighHalf unit || isLowHalf unit) = true
  apart : ps.IsChain fun p q => ¬p.Joins q

namespace Settled

variable {p : Point} {ps : List Point}

theorem tail (h : Settled (p :: ps)) : Settled ps where
  halves unit member := h.halves unit (List.mem_cons_of_mem p member)
  apart := (List.isChain_cons.mp h.apart).2

theorem cons (h : Settled ps)
    (own : ∀ unit, p = .half unit → (isHighHalf unit || isLowHalf unit) = true)
    (apart : ∀ q ∈ ps.head?, ¬p.Joins q) : Settled (p :: ps) where
  halves unit member := by
    rcases List.mem_cons.mp member with same | later
    · exact own unit same.symm
    · exact h.halves unit later
  apart := List.isChain_cons.mpr ⟨apart, h.apart⟩

theorem append_chars (h : Settled ps) (count : Nat) (c : Char) :
    Settled (List.replicate count (.char c) ++ ps) := by
  induction count with
  | zero => exact h
  | succ n ih =>
    apply ih.cons
    · intro unit own
      cases own
    · rintro q _ ⟨_, _, own, _⟩
      cases own

end Settled

theorem encodeChar_ne_nil (c : Char) : encodeChar c ≠ [] := by
  unfold encodeChar
  split <;> exact List.cons_ne_nil _ _

/-- No character starts with the second half of one. -/
theorem not_isLowHalf_encodeChar (c : Char) {unit : UInt16} (first : unit ∈ (encodeChar c).head?) :
    isLowHalf unit = false := by
  have bounds := toNat_bounds c
  apply Bool.eq_false_iff.mpr
  rw [ne_eq, isLowHalf_iff]
  unfold encodeChar at first
  split at first
  · rename_i short
    have own : UInt16.ofNat c.toNat = unit := Option.some.inj first
    rw [← own, toNat_ofNat short]
    omega
  · have own : UInt16.ofNat (0xD800 + (c.toNat - 0x10000) / 0x400) = unit := Option.some.inj first
    rw [← own, toNat_ofNat (by omega)]
    omega

theorem head?_units_of_settled {p : Point} {ps : List Point} (h : Settled (p :: ps))
    {high : UInt16} (own : p = .half high) (half : isHighHalf high = true) :
    ∀ low ∈ (ps.flatMap Point.units).head?, isLowHalf low = false := by
  intro low first
  cases ps with
  | nil => cases first
  | cons q ps =>
    cases q with
    | half unit =>
      have same : unit = low := Option.some.inj first
      apply Bool.eq_false_iff.mpr
      intro other
      apply (List.isChain_cons.mp h.apart).1 (.half unit) rfl
      exact ⟨high, unit, own, rfl, half, same ▸ other⟩
    | char c =>
      apply not_isLowHalf_encodeChar c
      rw [List.flatMap_cons, Point.units,
        List.head?_append_of_ne_nil _ (encodeChar_ne_nil c)] at first
      exact first

/-- Code points are those of the text they make. -/
theorem points_units {ps : List Point} (h : Settled ps) : points (ps.flatMap Point.units) = ps := by
  induction ps with
  | nil => rfl
  | cons p ps ih =>
    rw [List.flatMap_cons]
    cases p with
    | char c => rw [Point.units, points_encodeChar, ih h.tail]
    | half unit =>
      have alone : isHighHalf unit = false ∨
          ∀ low ∈ (ps.flatMap Point.units).head?, isLowHalf low = false := by
        by_cases high : isHighHalf unit = true
        · exact .inr (head?_units_of_settled h rfl high)
        · exact .inl (Bool.eq_false_iff.mpr high)
      rw [Point.units, List.singleton_append, points_cons alone, ih h.tail, single,
        if_pos (h.halves unit List.mem_cons_self)]

theorem single_eq_half {unit other : UInt16} (h : single unit = .half other) :
    unit = other ∧ (isHighHalf unit || isLowHalf unit) = true := by
  unfold single at h
  split at h
  · rename_i half
    exact ⟨Point.half.inj h, half⟩
  · cases h

/-- What a text starts with, if it is a half. -/
theorem head?_points {text : Units} {unit : UInt16} (h : .half unit ∈ (points text).head?) :
    unit ∈ text.head? := by
  fun_cases points text with
  | case1 => cases h
  | case2 first => exact congrArg some (single_eq_half (Option.some.inj h)).1
  | case3 first next rest joined =>
    rw [points, if_pos joined] at h
    cases h
  | case4 first next rest apart =>
    rw [points, if_neg apart] at h
    exact congrArg some (single_eq_half (Option.some.inj h)).1

theorem settled_points (text : Units) : Settled (points text) := by
  fun_induction points text with
  | case1 => exact ⟨by simp, .nil⟩
  | case2 unit =>
    refine ⟨?_, .singleton _⟩
    intro other member
    obtain ⟨rfl, half⟩ := single_eq_half (List.mem_singleton.mp member).symm
    exact half
  | case3 unit next rest joined ih =>
    apply ih.cons
    · intro other own
      cases own
    · rintro q _ ⟨_, _, own, _⟩
      cases own
  | case4 unit next rest apart ih =>
    apply ih.cons
    · intro other own
      obtain ⟨rfl, half⟩ := single_eq_half own
      exact half
    · rintro q first ⟨high, low, own, rfl, halves⟩
      obtain ⟨rfl, _⟩ := single_eq_half own
      have same : next = low := Option.some.inj (head?_points first)
      rw [same, Bool.and_eq_true] at apart
      exact apart halves

end Excerpt.Utf16
