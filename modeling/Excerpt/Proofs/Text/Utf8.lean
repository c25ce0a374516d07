import Excerpt.Text.Utf8
import Excerpt.Text.Utf16

/-! Text that was encoded is read back as it was, so bytes that are cut between
characters are the text of the characters among them. -/
namespace Excerpt.Utf8

theorem toNat_byte {n : Nat} (h : n < 256) : (UInt8.ofNat n).toNat = n :=
  UInt8.toNat_ofNat_of_lt h

/-- The last byte of a character, with the six lowest of its bits. -/
theorem decodeFrom_last {lower upper bits low : Nat} (bytes : List UInt8) (six : low < 0x40)
    (least : lower ≤ low + 0x80) (greatest : low + 0x80 ≤ upper) :
    decodeFrom (some ⟨1, lower, upper, bits⟩) (UInt8.ofNat (low + 0x80) :: bytes) =
      Char.ofNat (bits * 64 + low) :: decodeFrom none bytes := by
  have byte := toNat_byte (n := low + 0x80) (by omega)
  rw [decodeFrom, byte]
  simp only [step, least, greatest, and_self, if_true, Nat.add_sub_cancel]
  rfl

/-- A byte in the middle of a character, with six of its bits. -/
theorem decodeFrom_middle {missing lower upper bits low : Nat} (bytes : List UInt8)
    (six : low < 0x40) (least : lower ≤ low + 0x80) (greatest : low + 0x80 ≤ upper) :
    decodeFrom (some ⟨missing + 2, lower, upper, bits⟩) (UInt8.ofNat (low + 0x80) :: bytes) =
      decodeFrom (some ⟨missing + 1, 0x80, 0xBF, bits * 64 + low⟩) bytes := by
  have byte := toNat_byte (n := low + 0x80) (by omega)
  rw [decodeFrom, byte]
  simp only [step, least, greatest, and_self, if_true, Nat.add_sub_cancel]
  rfl

theorem decodeFrom_first {n : Nat} {pending : Pending} (bytes : List UInt8) (h : n < 256)
    (starts : first n = ([], some pending)) :
    decodeFrom none (UInt8.ofNat n :: bytes) = decodeFrom (some pending) bytes := by
  rw [decodeFrom, toNat_byte h]
  simp only [step, starts]
  rfl

theorem first_single {n : Nat} (h : n < 0x80) : first n = ([Char.ofNat n], none) := if_pos h

theorem first_of_two {high : Nat} (h : 2 ≤ high) (five : high < 0x20) :
    first (high + 0xC0) = ([], some ⟨1, 0x80, 0xBF, high⟩) := by
  rw [first, if_neg (by omega), if_pos (by omega), Nat.add_sub_cancel]

theorem first_of_three {high : Nat} (four : high < 0x10) :
    first (high + 0xE0) =
      ([], some ⟨2, if high = 0 then 0xA0 else 0x80, if high = 13 then 0x9F else 0xBF, high⟩) := by
  rw [first, if_neg (by omega), if_neg (by omega), if_pos (by omega), Nat.add_sub_cancel]
  congr 4
  · simp
  · simp

theorem first_of_four {high : Nat} (h : high ≤ 4) :
    first (high + 0xF0) =
      ([], some ⟨3, if high = 0 then 0x90 else 0x80, if high = 4 then 0x8F else 0xBF, high⟩) := by
  rw [first, if_neg (by omega), if_neg (by omega), if_neg (by omega), if_pos (by omega),
    Nat.add_sub_cancel]
  congr 4
  · simp
  · simp

theorem decodeFrom_encodeChar (c : Char) (bytes : List UInt8) :
    decodeFrom none (String.utf8EncodeChar c ++ bytes) = c :: decodeFrom none bytes := by
  have bounds : c.val.toNat < 0xD800 ∨ 0xDFFF < c.val.toNat ∧ c.val.toNat < 0x110000 :=
    Utf16.toNat_bounds c
  have whole : Char.ofNat c.val.toNat = c := Char.ofNat_toNat c
  unfold String.utf8EncodeChar
  dsimp only
  generalize c.val.toNat = v at bounds whole ⊢
  split
  · rename_i one
    rw [List.singleton_append, decodeFrom, toNat_byte (by omega), step, first_single (by omega),
      whole]
    rfl
  · split
    · have joined : v / 64 % 0x20 * 64 + v % 0x40 = v := by omega
      rw [List.cons_append, decodeFrom_first _ (by omega) (first_of_two (by omega) (by omega)),
        List.singleton_append, decodeFrom_last bytes (by omega) (by omega) (by omega), joined,
        whole]
    · split
      · have joined : (v / 4096 % 0x10 * 64 + v / 64 % 0x40) * 64 + v % 0x40 = v := by omega
        rw [List.cons_append, decodeFrom_first _ (by omega) (first_of_three (by omega)),
          List.cons_append, decodeFrom_middle _ (by omega) (by split <;> omega)
            (by split <;> omega),
          List.singleton_append, decodeFrom_last bytes (by omega) (by omega) (by omega), joined,
          whole]
      · have joined : ((v / 262144 % 0x08 * 64 + v / 4096 % 0x40) * 64 + v / 64 % 0x40) * 64 +
            v % 0x40 = v := by omega
        rw [List.cons_append, decodeFrom_first _ (by omega) (first_of_four (by omega)),
          List.cons_append, decodeFrom_middle _ (by omega) (by split <;> omega)
            (by split <;> omega),
          List.cons_append, decodeFrom_middle _ (by omega) (by omega) (by omega),
          List.singleton_append, decodeFrom_last bytes (by omega) (by omega) (by omega), joined,
          whole]

theorem decodeFrom_encodeChars (cs : List Char) : decodeFrom none (encodeChars cs) = cs := by
  induction cs with
  | nil => rfl
  | cons c cs ih =>
    have next : encodeChars (c :: cs) = String.utf8EncodeChar c ++ encodeChars cs :=
      List.flatMap_cons
    rw [next, decodeFrom_encodeChar, ih]

theorem decode_encodeChars (cs : List Char) : decode (encodeChars cs) = String.ofList cs :=
  congrArg String.ofList (decodeFrom_encodeChars cs)

/-! ## The bytes of a character -/

/-- A byte behind the first one of a character has six of its bits. -/
theorem continues_low {low : Nat} (six : low < 0x40) :
    continues (UInt8.ofNat (low + 0x80)).toNat = true := by
  rw [toNat_byte (by omega), continues, Bool.and_eq_true, decide_eq_true_eq, decide_eq_true_eq]
  omega

/-- A character is a byte below 128, or one that starts it and others that go on with it. -/
theorem encodeChar_cases (c : Char) :
    c.toNat < 0x80 ∧ String.utf8EncodeChar c = [UInt8.ofNat c.toNat] ∨
    0x80 ≤ c.toNat ∧ ∃ first rest, String.utf8EncodeChar c = first :: rest ∧
      0xC0 ≤ first.toNat ∧ ∀ byte ∈ rest, continues byte.toNat = true := by
  have same : c.toNat = c.val.toNat := rfl
  rw [same]
  unfold String.utf8EncodeChar
  dsimp only
  generalize c.val.toNat = v
  split
  · exact .inl ⟨by omega, rfl⟩
  · refine .inr ⟨by omega, ?_⟩
    split
    · refine ⟨_, _, rfl, ?_, ?_⟩
      · rw [toNat_byte (by omega)]
        omega
      · simp only [List.mem_singleton, forall_eq]
        exact continues_low (by omega)
    · split
      · refine ⟨_, _, rfl, ?_, ?_⟩
        · rw [toNat_byte (by omega)]
          omega
        · simp only [List.mem_cons, List.not_mem_nil, or_false, forall_eq_or_imp, forall_eq]
          exact ⟨continues_low (by omega), continues_low (by omega)⟩
      · refine ⟨_, _, rfl, ?_, ?_⟩
        · rw [toNat_byte (by omega)]
          omega
        · simp only [List.mem_cons, List.not_mem_nil, or_false, forall_eq_or_imp, forall_eq]
          exact ⟨continues_low (by omega), continues_low (by omega), continues_low (by omega)⟩

theorem continues_eq_true_iff {byte : Nat} :
    continues byte = true ↔ 0x80 ≤ byte ∧ byte < 0xC0 := by
  rw [continues, Bool.and_eq_true, decide_eq_true_eq, decide_eq_true_eq]

/-- The first byte of a character goes on with nothing, and the others with it. -/
theorem exists_encodeChar (c : Char) :
    ∃ first rest, String.utf8EncodeChar c = first :: rest ∧ continues first.toNat = false ∧
      ∀ byte ∈ rest, continues byte.toNat = true := by
  rcases encodeChar_cases c with ⟨low, bytes⟩ | ⟨_, first, rest, bytes, high, others⟩
  · refine ⟨_, [], bytes, ?_, by simp⟩
    rw [toNat_byte (by omega), ← Bool.not_eq_true, continues_eq_true_iff]
    omega
  · refine ⟨first, rest, bytes, ?_, others⟩
    rw [← Bool.not_eq_true, continues_eq_true_iff]
    omega

/-- A byte below 128 is a character of its own. -/
theorem mem_encodeChar_iff (own : Char) {c : Char} (low : own.toNat < 0x80) :
    UInt8.ofNat own.toNat ∈ String.utf8EncodeChar c ↔ c = own := by
  have byte := toNat_byte (n := own.toNat) (by omega)
  rcases encodeChar_cases c with ⟨small, bytes⟩ | ⟨large, first, rest, bytes, high, others⟩
  · rw [bytes, List.mem_singleton]
    constructor
    · intro same
      have code := congrArg UInt8.toNat same
      rw [byte, toNat_byte (by omega)] at code
      rw [← Char.ofNat_toNat c, ← code, Char.ofNat_toNat]
    · exact fun same => same ▸ rfl
  · rw [bytes, List.mem_cons]
    constructor
    · rintro (start | later)
      · rw [← start, byte] at high
        omega
      · have continued := continues_eq_true_iff.mp (others _ later)
        omega
    · rintro rfl
      omega

end Excerpt.Utf8
