import JavaSurvey.Text.Utf8

/-!
# Decoding what was encoded

The bytes of a text decode to the text. A character has one to four bytes, and the first byte fixes
how many are owed and what the second one may be:

1. `decodeFirst_two`, `decodeFirst_three` and `decodeFirst_four`: the first byte of a character
   starts a `Partial` that its second byte fits, because no character is a surrogate and none is
   written longer than it must be;
2. `decodeFrom_utf8EncodeChar`: the bytes of one character decode to it, whatever follows;
3. `ofUtf8_utf8`: by induction, so do the bytes of a text.
-/

namespace JavaSurvey.Text

/-! ## Single bytes -/

theorem decodeFirst_ascii {b : Nat} (small : b < 0x80) :
    decodeFirst b = ([Char.ofNat b], none) := by
  rw [decodeFirst, if_pos small]

theorem decodeFirst_two {v : Nat} (low : 0x80 ≤ v) (high : v < 0x800) :
    decodeFirst (v / 64 + 0xC0) = ([], some ⟨v / 64, 1, 0x80, 0xBF⟩) := by
  unfold decodeFirst
  rw [if_neg (by omega), if_neg (by omega), if_pos (by omega), Nat.add_sub_cancel]

/-- The first of three bytes. What the second may be keeps out shorter characters after `0xE0` and
surrogates after `0xED`. -/
theorem decodeFirst_three {v : Nat} (low : 0x800 ≤ v) (high : v < 0x10000)
    (scalar : v < 0xD800 ∨ 0xDFFF < v) :
    ∃ least most, decodeFirst (v / 4096 + 0xE0) = ([], some ⟨v / 4096, 2, least, most⟩) ∧
      least ≤ v / 64 % 64 + 0x80 ∧ v / 64 % 64 + 0x80 ≤ most := by
  unfold decodeFirst
  rw [if_neg (by omega), if_neg (by omega), if_neg (by omega)]
  by_cases first : v / 4096 = 0
  · refine ⟨0xA0, 0xBF, ?_, by omega, by omega⟩
    rw [if_pos (by omega), first]
  · rw [if_neg (by omega)]
    by_cases surrogate : v / 4096 = 0xD
    · refine ⟨0x80, 0x9F, ?_, by omega, by omega⟩
      rw [if_pos (by omega), surrogate]
    · refine ⟨0x80, 0xBF, ?_, by omega, by omega⟩
      rw [if_neg (by omega), if_pos (by omega), Nat.add_sub_cancel]

/-- The first of four bytes. What the second may be keeps out shorter characters after `0xF0` and
what is no character after `0xF4`. -/
theorem decodeFirst_four {v : Nat} (low : 0x10000 ≤ v) (high : v < 0x110000) :
    ∃ least most, decodeFirst (v / 262144 + 0xF0) = ([], some ⟨v / 262144, 3, least, most⟩) ∧
      least ≤ v / 4096 % 64 + 0x80 ∧ v / 4096 % 64 + 0x80 ≤ most := by
  unfold decodeFirst
  rw [if_neg (by omega), if_neg (by omega), if_neg (by omega), if_neg (by omega),
    if_neg (by omega), if_neg (by omega)]
  by_cases first : v / 262144 = 0
  · refine ⟨0x90, 0xBF, ?_, by omega, by omega⟩
    rw [if_pos (by omega), first]
  · rw [if_neg (by omega)]
    by_cases last : v / 262144 = 4
    · refine ⟨0x80, 0x8F, ?_, by omega, by omega⟩
      rw [if_neg (by omega), if_pos (by omega), last]
    · refine ⟨0x80, 0xBF, ?_, by omega, by omega⟩
      rw [if_pos (by omega), Nat.add_sub_cancel]

theorem decodeNext_last {bits least most b : Nat} (above : least ≤ b + 0x80)
    (below : b + 0x80 ≤ most) :
    decodeNext ⟨bits, 1, least, most⟩ (b + 0x80) = ([Char.ofNat (64 * bits + b)], none) := by
  simp [decodeNext, above, below]

theorem decodeNext_more {bits owed least most b : Nat} (above : least ≤ b + 0x80)
    (below : b + 0x80 ≤ most) :
    decodeNext ⟨bits, owed + 2, least, most⟩ (b + 0x80) =
      ([], some ⟨64 * bits + b, owed + 1, 0x80, 0xBF⟩) := by
  simp [decodeNext, above, below]

theorem decodeFrom_first {b : Nat} {out : Text} {next : Option Partial} (byte : b < 256)
    (decoded : decodeFirst b = (out, next)) (rest : List UInt8) :
    decodeFrom none (UInt8.ofNat b :: rest) = out ++ decodeFrom next rest := by
  rw [decodeFrom, UInt8.toNat_ofNat_of_lt' byte, decoded]

theorem decodeFrom_next {p : Partial} {b : Nat} {out : Text} {next : Option Partial}
    (byte : b < 256) (decoded : decodeNext p b = (out, next)) (rest : List UInt8) :
    decodeFrom (some p) (UInt8.ofNat b :: rest) = out ++ decodeFrom next rest := by
  rw [decodeFrom, UInt8.toNat_ofNat_of_lt' byte, decoded]

/-! ## Characters and texts -/

/-- The bytes of a character decode to it, whatever follows them. -/
theorem decodeFrom_utf8EncodeChar (c : Char) (rest : List UInt8) :
    decodeFrom none (String.utf8EncodeChar c ++ rest) = c :: decodeFrom none rest := by
  have valid : c.val.toNat < 0xD800 ∨ 0xDFFF < c.val.toNat ∧ c.val.toNat < 0x110000 := c.valid
  have whole : Char.ofNat c.val.toNat = c := Char.ofNat_toNat c
  unfold String.utf8EncodeChar
  generalize c.val.toNat = v at valid whole
  -- Each byte is taken apart by the lemma on its place, and the bits add up to those of `c`.
  dsimp only
  split
  · next one =>
    rw [List.cons_append, List.nil_append,
      decodeFrom_first (by omega) (decodeFirst_ascii (by omega)), whole]
    rfl
  · next beyondOne =>
    split
    · next two =>
      have first : v / 64 % 32 = v / 64 := by omega
      have bits : 64 * (v / 64) + v % 64 = v := by omega
      simp only [List.cons_append, List.nil_append, first]
      rw [decodeFrom_first (by omega) (decodeFirst_two (by omega) (by omega)),
        List.nil_append, decodeFrom_next (by omega) (decodeNext_last (by omega) (by omega)), bits,
        whole]
      rfl
    · next beyondTwo =>
      split
      · next three =>
        obtain ⟨least, most, started, above, below⟩ :=
          decodeFirst_three (v := v) (by omega) (by omega) (by omega)
        have first : v / 4096 % 16 = v / 4096 := by omega
        have bits : 64 * (64 * (v / 4096) + v / 64 % 64) + v % 64 = v := by omega
        simp only [List.cons_append, List.nil_append, first]
        rw [decodeFrom_first (by omega) started, List.nil_append,
          decodeFrom_next (by omega) (decodeNext_more above below), List.nil_append,
          decodeFrom_next (by omega) (decodeNext_last (by omega) (by omega)), bits, whole]
        rfl
      · next beyondThree =>
        obtain ⟨least, most, started, above, below⟩ :=
          decodeFirst_four (v := v) (by omega) (by omega)
        have first : v / 262144 % 8 = v / 262144 := by omega
        have bits : 64 * (64 * (64 * (v / 262144) + v / 4096 % 64) + v / 64 % 64) + v % 64 = v := by
          omega
        simp only [List.cons_append, List.nil_append, first]
        rw [decodeFrom_first (by omega) started, List.nil_append,
          decodeFrom_next (by omega) (decodeNext_more above below), List.nil_append,
          decodeFrom_next (by omega) (decodeNext_more (by omega) (by omega)), List.nil_append,
          decodeFrom_next (by omega) (decodeNext_last (by omega) (by omega)), bits, whole]
        rfl

theorem ofUtf8_utf8 (t : Text) : ofUtf8 (utf8 t) = t := by
  induction t with
  | nil => rfl
  | cons c rest ih =>
    rw [utf8, List.flatMap_cons, ofUtf8, decodeFrom_utf8EncodeChar]
    exact congrArg (c :: ·) ih

end JavaSurvey.Text
