import Excerpt.Proofs.Text.Utf8
import Excerpt.Source.Store
import Mathlib.Data.List.Basic

/-! The lines of a file. A line is a stretch of its text without line feeds; the
bytes of the line are the bytes of that stretch, and every offset among them lies
on the line. -/
namespace Excerpt

namespace ByteLocation

theorem line_le_foldl (location : ByteLocation) (cs : List Char) :
    location.line ≤ (cs.foldl next location).line := by
  induction cs generalizing location with
  | nil => exact Nat.le_refl _
  | cons c cs ih =>
    refine Nat.le_trans ?_ (ih _)
    unfold next
    split
    · exact Nat.le_succ _
    · exact Nat.le_refl _

/-- Characters other than line feeds stay on a line. -/
theorem foldl_next_of_not_mem {cs : List Char} (free : '\n' ∉ cs) (location : ByteLocation) :
    cs.foldl next location = ⟨location.line, location.byteColumn + SourceFile.byteLength cs⟩ := by
  induction cs generalizing location with
  | nil => rfl
  | cons c cs ih =>
    rw [List.mem_cons, not_or] at free
    rw [List.foldl_cons, ih free.2, next, if_neg (Ne.symm free.1), SourceFile.byteLength,
      Nat.add_assoc]

theorem foldl_next_lines {lines : List (List Char)} (free : ∀ text ∈ lines, '\n' ∉ text)
    (line : Nat) :
    (lines.flatMap fun text => text ++ ['\n']).foldl next ⟨line, 0⟩ =
      ⟨line + lines.length, 0⟩ := by
  induction lines generalizing line with
  | nil => rfl
  | cons text lines ih =>
    rw [List.flatMap_cons, List.foldl_append, List.foldl_append,
      foldl_next_of_not_mem (free text (by simp)), List.foldl_cons, next, if_pos rfl,
      List.foldl_nil, ih (fun other h => free other (by simp [h])), List.length_cons,
      Nat.add_comm lines.length, Nat.add_assoc]

end ByteLocation

namespace SourceFile

theorem length_encodeChars (cs : List Char) : (Utf8.encodeChars cs).length = byteLength cs := by
  induction cs with
  | nil => rfl
  | cons c cs ih =>
    have next : Utf8.encodeChars (c :: cs) = String.utf8EncodeChar c ++ Utf8.encodeChars cs :=
      List.flatMap_cons
    rw [next, List.length_append, String.length_utf8EncodeChar, ih, byteLength]

theorem eq_nil_of_byteLength {cs : List Char} (h : byteLength cs = 0) : cs = [] := by
  cases cs with
  | nil => rfl
  | cons c cs =>
    have size := c.utf8Size_pos
    rw [byteLength] at h
    omega

/-- Of two fronts of a text the one with fewer bytes is a front of the other. -/
theorem prefix_of_byteLength_le {a b cs : List Char} (ha : a <+: cs) (hb : b <+: cs)
    (h : byteLength a ≤ byteLength b) : a <+: b := by
  rcases List.prefix_or_prefix_of_prefix ha hb with shorter | ⟨rest, rfl⟩
  · exact shorter
  · rw [byteLength_append] at h
    have empty : rest = [] := eq_nil_of_byteLength (by omega)
    exact ⟨[], by rw [empty, List.append_nil, List.append_nil]⟩

theorem locate_eq_some_iff {location found : ByteLocation} {offset : Nat} {cs : List Char} :
    locate location offset cs = some found ↔
      ∃ before, before <+: cs ∧ byteLength before = offset ∧
        found = before.foldl ByteLocation.next location := by
  constructor
  · intro h
    induction cs generalizing location offset with
    | nil =>
      cases offset with
      | zero => exact ⟨[], List.prefix_rfl, rfl, (Option.some.inj h).symm⟩
      | succ offset => cases h
    | cons c cs ih =>
      cases offset with
      | zero => exact ⟨[], List.nil_prefix, rfl, (Option.some.inj h).symm⟩
      | succ offset =>
        rw [locate] at h
        split at h
        · rename_i inside
          obtain ⟨before, front, length, rfl⟩ := ih h
          refine ⟨c :: before, (List.prefix_cons_inj c).mpr front, ?_, rfl⟩
          rw [byteLength, length]
          omega
        · cases h
  · rintro ⟨before, ⟨rest, rfl⟩, rfl, rfl⟩
    induction before generalizing location with
    | nil => cases rest <;> rfl
    | cons c before ih =>
      have size := c.utf8Size_pos
      obtain ⟨offset, passed⟩ : ∃ offset, c.utf8Size + byteLength before = offset + 1 :=
        ⟨c.utf8Size + byteLength before - 1, by omega⟩
      rw [byteLength, passed, List.cons_append, locate, if_pos (by omega),
        show offset + 1 - c.utf8Size = byteLength before by omega, ih]
      rfl

/-- Bytes that are cut between characters are the text of the characters. -/
theorem slice_of_split {file : SourceFile} {before text after : List Char}
    (split : file.source.toList = before ++ text ++ after) :
    file.slice (byteLength before) (byteLength before + byteLength text) = String.ofList text := by
  rw [slice, Utf8.encode, split, Utf8.encodeChars_append, Utf8.encodeChars_append,
    List.append_assoc, List.drop_left' (length_encodeChars before), Nat.add_sub_cancel_left,
    List.take_left' (length_encodeChars text), Utf8.decode_encodeChars]

theorem mem_lines_free {cs text : List Char} (h : text ∈ cs.splitOn '\n') : '\n' ∉ text := by
  induction cs generalizing text with
  | nil =>
    rw [List.splitOn_nil, List.mem_singleton] at h
    simp [h]
  | cons c cs ih =>
    rw [List.splitOn_cons_eq_if_modifyHead] at h
    split at h
    · rcases List.mem_cons.mp h with rfl | later
      · simp
      · exact ih later
    · rename_i other
      cases lines : cs.splitOn '\n' with
      | nil => exact absurd lines (List.splitOn_ne_nil _ _)
      | cons first rest =>
        rw [lines] at h ih
        rcases List.mem_cons.mp h with rfl | later
        · have free : '\n' ∉ first := ih (by simp)
          simp only [beq_iff_eq] at other
          simp [free, Ne.symm other]
        · exact ih (List.mem_cons_of_mem _ later)

/-- In front of a line are the lines before it with their line feeds. -/
theorem prefix_of_lines {cs text : List Char} {index : Nat}
    (h : (cs.splitOn '\n')[index]? = some text) :
    (((cs.splitOn '\n').take index).flatMap fun text => text ++ ['\n']) ++ text <+: cs := by
  induction cs generalizing index text with
  | nil =>
    rw [List.splitOn_nil] at h ⊢
    cases index with
    | zero => cases h; exact List.prefix_rfl
    | succ index => cases h
  | cons c cs ih =>
    rw [List.splitOn_cons_eq_if_modifyHead] at h ⊢
    split at h
    · rename_i feed
      rw [if_pos feed]
      cases index with
      | zero => cases h; exact List.nil_prefix
      | succ index =>
        rw [List.take_succ_cons, List.flatMap_cons, List.nil_append, List.singleton_append,
          List.cons_append, eq_of_beq feed]
        exact (List.prefix_cons_inj _).mpr (ih h)
    · rename_i other
      rw [if_neg other]
      cases lines : cs.splitOn '\n' with
      | nil => exact absurd lines (List.splitOn_ne_nil _ _)
      | cons first rest =>
        rw [lines] at h ih
        cases index with
        | zero =>
          cases h
          have top : (first :: rest)[0]? = some first := rfl
          exact (List.prefix_cons_inj c).mpr (ih top)
        | succ index =>
          have below : (first :: rest)[index + 1]? = some text := h
          have longer := ih below
          rw [List.take_succ_cons, List.flatMap_cons] at longer
          rw [List.modifyHead_cons, List.take_succ_cons, List.flatMap_cons, List.cons_append,
            List.cons_append, List.cons_append]
          exact (List.prefix_cons_inj c).mpr longer

/-- What comes before a line, the text of the line, and what comes after it. -/
structure LineSplit (file : SourceFile) (line : Nat) (before text after : List Char) : Prop where
  source : file.source.toList = before ++ text ++ after
  free : '\n' ∉ text
  start : before.foldl ByteLocation.next ⟨1, 0⟩ = ⟨line, 0⟩

theorem terminatorPart_concat (text : List Char) (c : Char) :
    terminatorPart (text ++ [c]) = if c = '\r' then 1 else 0 := by
  simp [terminatorPart]

theorem split_of_lineRange {file : SourceFile} {line : Nat} {range : ByteRange}
    (h : file.lineRange line = some range) :
    ∃ before text after, LineSplit file line before text after ∧
      range = ⟨byteLength before, byteLength before + byteLength text⟩ := by
  cases line with
  | zero => cases h
  | succ index =>
    obtain ⟨whole, found, rfl⟩ := Option.map_eq_some_iff.mp h
    obtain ⟨after, eq⟩ := prefix_of_lines found
    have free := mem_lines_free (List.mem_of_getElem? found)
    have inside := (List.getElem?_eq_some_iff.mp found).1
    have start : ((file.lines.take index).flatMap fun text => text ++ ['\n']).foldl
        ByteLocation.next ⟨1, 0⟩ = ⟨index + 1, 0⟩ := by
      have before : ∀ text ∈ file.lines.take index, '\n' ∉ text := fun text ht =>
        mem_lines_free (List.mem_of_mem_take ht)
      rw [ByteLocation.foldl_next_lines before, List.length_take,
        Nat.min_eq_left (Nat.le_of_lt inside), Nat.add_comm]
    rcases List.eq_nil_or_concat' whole with rfl | ⟨text, c, rfl⟩
    · exact ⟨_, [], after, ⟨eq.symm, free, start⟩, rfl⟩
    · dsimp only
      rw [terminatorPart_concat]
      split
      · -- The carriage return is no part of the line.
        rename_i carriage
        refine ⟨_, text, [c] ++ after, ⟨?_, ?_, start⟩, ?_⟩
        · rw [← eq]
          simp only [List.append_assoc]
          rfl
        · exact fun h => free (List.mem_append_left _ h)
        · have one : byteLength [c] = 1 := by rw [carriage]; rfl
          rw [byteLength_append, one, ← Nat.add_assoc, Nat.add_sub_cancel]
      · exact ⟨_, text ++ [c], after, ⟨eq.symm, free, start⟩, rfl⟩

namespace LineSplit

variable {file : SourceFile} {line : Nat} {before text after : List Char}

/-- Behind the front of a line is an offset on the line. -/
theorem location (h : LineSplit file line before text after) {front : List Char}
    (hf : front <+: text) :
    file.location (byteLength before + byteLength front) = some ⟨line, byteLength front⟩ := by
  obtain ⟨rest, rfl⟩ := hf
  refine locate_eq_some_iff.mpr ⟨before ++ front, ?_, byteLength_append _ _, ?_⟩
  · rw [h.source, List.append_assoc, List.append_assoc, ← List.append_assoc]
    exact List.prefix_append _ _
  · have free : '\n' ∉ front := fun hn => h.free (List.mem_append_left _ hn)
    rw [List.foldl_append, h.start, ByteLocation.foldl_next_of_not_mem free, Nat.zero_add]

/-- An offset between the bytes of a line, and between characters, is behind a
front of the line. -/
theorem front_of_location (h : LineSplit file line before text after) {offset : Nat}
    {location : ByteLocation} (found : file.location offset = some location)
    (from_start : byteLength before ≤ offset)
    (to_stop : offset ≤ byteLength before + byteLength text) :
    ∃ front, front <+: text ∧ offset = byteLength before + byteLength front := by
  obtain ⟨passed, hp, rfl, -⟩ := locate_eq_some_iff.mp found
  have whole : before ++ text <+: file.source.toList := h.source ▸ List.prefix_append _ _
  obtain ⟨front, rfl⟩ :=
    prefix_of_byteLength_le ((List.prefix_append before text).trans whole) hp from_start
  rw [← byteLength_append before text] at to_stop
  have inside := prefix_of_byteLength_le hp whole to_stop
  exact ⟨front, (List.prefix_append_right_inj before).mp inside, byteLength_append _ _⟩

/-- The bytes between two places of a line. -/
theorem slice (h : LineSplit file line before text after) {front part : List Char}
    (hf : front ++ part <+: text) :
    file.slice (byteLength before + byteLength front)
        (byteLength before + byteLength front + byteLength part) = String.ofList part := by
  obtain ⟨rest, rfl⟩ := hf
  rw [← byteLength_append]
  refine slice_of_split (?_ : file.source.toList = before ++ front ++ part ++ (rest ++ after))
  rw [h.source]
  simp only [List.append_assoc]

end LineSplit
end SourceFile
end Excerpt
