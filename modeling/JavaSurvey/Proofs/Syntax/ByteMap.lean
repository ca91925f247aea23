import JavaSurvey.Syntax.ByteMap

/-!
# Bytes and characters

`Text.charOfByte` says, by recursion on a text, which character holds a byte. The byte map is the
table of that function, and a text of ASCII characters needs no table because the function is the
identity there (`Encoded.charOffset_ofText`). Between two characters it counts those before
(`Text.charOfByte_boundary`).

`Text.HoldsByte` says the same by the bytes before a character and those up to its end
(`Text.holdsByte_iff`). There is one table that agrees with it (`IsByteTable.getElem?_eq`), and both
the byte map and its absence stand for that table (`byteMap?_inverts_utf8`).
-/

namespace JavaSurvey

namespace Text

/-- The offset of the character that holds byte `b` of a text, and the length of the text for a
byte after its end. -/
def charOfByte : Text → Nat → Nat
  | [], _ => 0
  | c :: rest, b => if b < c.utf8Size then 0 else charOfByte rest (b - c.utf8Size) + 1

@[simp] theorem utf8Size_cons (c : Char) (t : Text) :
    utf8Size (c :: t) = c.utf8Size + utf8Size t := by
  simp [utf8Size]

theorem utf8Size_append (front back : Text) :
    utf8Size (front ++ back) = utf8Size front + utf8Size back := by
  induction front with
  | nil => simp [utf8Size]
  | cons c rest ih => rw [List.cons_append, utf8Size_cons, utf8Size_cons, ih, Nat.add_assoc]

/-- The size of a text is the number of its bytes. -/
theorem length_utf8 (t : Text) : (utf8 t).length = utf8Size t := by
  induction t with
  | nil => rfl
  | cons c rest ih =>
    rw [utf8, List.flatMap_cons, List.length_append, utf8Size_cons]
    rw [utf8] at ih
    rw [ih, String.length_utf8EncodeChar]

theorem charOfByte_le (t : Text) (b : Nat) : charOfByte t b ≤ t.length := by
  induction t generalizing b with
  | nil => exact Nat.le_refl 0
  | cons c rest ih =>
    rw [charOfByte, List.length_cons]
    split
    · exact Nat.zero_le _
    · exact Nat.succ_le_succ (ih _)

/-- A byte of a text belongs to one of its characters. -/
theorem charOfByte_lt {t : Text} {b : Nat} (inside : b < utf8Size t) :
    charOfByte t b < t.length := by
  induction t generalizing b with
  | nil => exact absurd inside (Nat.not_lt_zero b)
  | cons c rest ih =>
    rw [utf8Size_cons] at inside
    rw [charOfByte, List.length_cons]
    split
    · exact Nat.succ_pos _
    · next past => exact Nat.succ_lt_succ (ih (by omega))

theorem utf8_append (front back : Text) : utf8 (front ++ back) = utf8 front ++ utf8 back :=
  List.flatMap_append

theorem charOfByte_zero (t : Text) : charOfByte t 0 = 0 := by
  cases t with
  | nil => rfl
  | cons c rest => rw [charOfByte, if_pos c.utf8Size_pos]

/-- The byte at which the second part of a text starts belongs to the first character of it. -/
theorem charOfByte_boundary (front back : Text) :
    charOfByte (front ++ back) (utf8Size front) = front.length := by
  induction front with
  | nil => exact charOfByte_zero back
  | cons c rest ih =>
    rw [List.cons_append, charOfByte, utf8Size_cons, if_neg (by omega), Nat.add_sub_cancel_left, ih,
      List.length_cons]

/-- A later byte does not belong to an earlier character. -/
theorem charOfByte_mono (t : Text) {a b : Nat} (ordered : a ≤ b) :
    charOfByte t a ≤ charOfByte t b := by
  induction t generalizing a b with
  | nil => exact Nat.le_refl 0
  | cons c rest ih =>
    rw [charOfByte, charOfByte]
    split
    · exact Nat.zero_le _
    · next past =>
      rw [if_neg (by omega)]
      exact Nat.succ_le_succ (ih (by omega))

theorem utf8Size_of_isAscii {c : Char} (ascii : isAscii c = true) : c.utf8Size = 1 := by
  have small : c.toNat < 128 := by simpa [isAscii] using ascii
  exact Char.utf8Size_eq_one_iff.mpr (UInt32.le_iff_toNat_le.mpr (Nat.le_of_lt_succ small))

/-- In a text of ASCII characters, characters and bytes have the same offsets. -/
theorem charOfByte_of_isAscii {t : Text} (ascii : t.all isAscii = true) {b : Nat}
    (inside : b ≤ utf8Size t) : charOfByte t b = b := by
  induction t generalizing b with
  | nil => exact (Nat.le_zero.mp inside).symm
  | cons c rest ih =>
    rw [List.all_cons, Bool.and_eq_true] at ascii
    have single := utf8Size_of_isAscii ascii.1
    rw [utf8Size_cons, single] at inside
    rw [charOfByte, single]
    split
    · omega
    · have := ih ascii.2 (b := b - 1) (by omega)
      omega

/-- The character at offset `i` holds byte `b` of a text. The byte after the last one belongs to the
end of the text. -/
def HoldsByte (t : Text) (i b : Nat) : Prop :=
  utf8Size (t.take i) ≤ b ∧ b < utf8Size (t.take (i + 1)) ∨ i = t.length ∧ b = utf8Size t

instance (t : Text) (i b : Nat) : Decidable (t.HoldsByte i b) :=
  inferInstanceAs (Decidable (_ ∨ _))

theorem holdsByte_cons_zero (c : Char) (rest : Text) (b : Nat) :
    HoldsByte (c :: rest) 0 b ↔ b < c.utf8Size := by
  have size : utf8Size [] = 0 := rfl
  simp [HoldsByte, size]

theorem holdsByte_cons_succ (c : Char) (rest : Text) (i b : Nat) :
    HoldsByte (c :: rest) (i + 1) b ↔ c.utf8Size ≤ b ∧ HoldsByte rest i (b - c.utf8Size) := by
  unfold HoldsByte
  rw [List.take_succ_cons, List.take_succ_cons, utf8Size_cons, utf8Size_cons, utf8Size_cons,
    List.length_cons]
  omega

/-- Only the bytes of a text, and the one after the last, are held. -/
theorem HoldsByte.le_size {t : Text} {i b : Nat} (holds : HoldsByte t i b) : b ≤ utf8Size t := by
  rcases holds with ⟨-, ends⟩ | ⟨-, rfl⟩
  · have whole := utf8Size_append (t.take (i + 1)) (t.drop (i + 1))
    rw [List.take_append_drop] at whole
    omega
  · exact Nat.le_refl _

/-- Each byte is held by one character, and `charOfByte` gives its offset. -/
theorem holdsByte_iff {t : Text} {i b : Nat} (inside : b ≤ utf8Size t) :
    HoldsByte t i b ↔ i = charOfByte t b := by
  induction t generalizing i b with
  | nil =>
    obtain rfl : b = 0 := Nat.le_zero.mp inside
    simp [HoldsByte, charOfByte, utf8Size]
  | cons c rest ih =>
    rw [utf8Size_cons] at inside
    rw [charOfByte]
    cases i with
    | zero =>
      rw [holdsByte_cons_zero]
      split <;> simp [*]
    | succ i =>
      rw [holdsByte_cons_succ, ih (by omega)]
      split
      · omega
      · omega

end Text

theorem getElem?_byteTable {t : Text} {b : Nat} (inside : b ≤ Text.utf8Size t) (i : Nat) :
    (byteTable i t)[b]? = some (i + Text.charOfByte t b) := by
  induction t generalizing i b with
  | nil =>
    obtain rfl : b = 0 := Nat.le_zero.mp inside
    rfl
  | cons c rest ih =>
    rw [Text.utf8Size_cons] at inside
    rw [byteTable, Text.charOfByte]
    split
    · next here =>
      rw [List.getElem?_append_left (by simpa using here)]
      simp [here]
    · next past =>
      -- The entries of `rest` come after those of `c`, which has one for each of its bytes.
      rw [List.getElem?_append_right (by simpa using past), List.length_replicate,
        ih (by omega) (i + 1)]
      congr 1
      omega

namespace Encoded

/-- The offset of a byte of a text, or of the one after the last, is that of the character which
holds it. -/
theorem charOffset_ofText {t : Text} {b : Int} (nonneg : 0 ≤ b) (inside : b ≤ Text.utf8Size t) :
    (ofText t).charOffset b = .ok (Text.charOfByte t b.toNat) := by
  have place : b.toNat ≤ Text.utf8Size t := by omega
  unfold charOffset ofText byteMap?
  by_cases ascii : t.all Text.isAscii = true
  · have same := Text.charOfByte_of_isAscii ascii place
    simp only [ascii, if_true, Option.map_none, same, Int.toNat_of_nonneg nonneg]
  · have found := getElem?_byteTable place 0
    have notNeg : ¬ b < 0 := by omega
    simp only [ascii, if_false, Option.map_some, notNeg, List.getElem?_toArray, found,
      Nat.zero_add, Bool.false_eq_true]

/-- Bytes that are not before a text are of characters that are not before it. -/
theorem charOffset_nonneg {src : Encoded} {b offset : Int} (nonneg : 0 ≤ b)
    (found : src.charOffset b = .ok offset) : 0 ≤ offset := by
  unfold charOffset at found
  cases isMap : src.map? with
  | none =>
    rw [isMap] at found
    cases found
    exact nonneg
  | some table =>
    simp only [isMap, if_neg (Int.not_lt.mpr nonneg)] at found
    cases entry : table[b.toNat]? with
    | none => rw [entry] at found; cases found
    | some k =>
      rw [entry] at found
      cases found
      exact Int.natCast_nonneg k

end Encoded

/-! ## Tables -/

/-- A table gives, for each byte of a source, the offset of the character whose bytes it is among,
and the length of the source for the byte after the last. -/
structure IsByteTable (source : Text) (table : List Nat) : Prop where
  length_eq : table.length = (Text.utf8 source).length + 1
  ordered : table.Pairwise (· ≤ ·)
  bytes : ∀ i b, (Text.utf8 (source.take i)).length ≤ b →
    b < (Text.utf8 (source.take (i + 1))).length → table[b]? = some i
  after : table[(Text.utf8 source).length]? = some source.length

/-- There is only one such table, that of `Text.charOfByte`. -/
theorem IsByteTable.getElem?_eq {source : Text} {table : List Nat}
    (isTable : IsByteTable source table) {b : Nat} (inside : b ≤ Text.utf8Size source) :
    table[b]? = some (Text.charOfByte source b) := by
  rcases (Text.holdsByte_iff inside).mpr rfl with ⟨starts, ends⟩ | ⟨final, rfl⟩
  · rw [← Text.length_utf8] at starts ends
    exact isTable.bytes _ b starts ends
  · rw [final, ← Text.length_utf8]
    exact isTable.after

theorem length_byteTable (i : Nat) (t : Text) : (byteTable i t).length = Text.utf8Size t + 1 := by
  induction t generalizing i with
  | nil => rfl
  | cons c rest ih =>
    rw [byteTable, List.length_append, List.length_replicate, ih, Text.utf8Size_cons, Nat.add_assoc]

/-- The table has an entry for each byte that is held. -/
theorem getElem?_byteTable_iff {source : Text} {b i : Nat} :
    (byteTable 0 source)[b]? = some i ↔ source.HoldsByte i b := by
  by_cases inside : b ≤ Text.utf8Size source
  · rw [getElem?_byteTable inside, Nat.zero_add, Text.holdsByte_iff inside, Option.some.injEq,
      eq_comm]
  · refine iff_of_false (fun found => ?_) fun holds => inside holds.le_size
    have bounded := (List.getElem?_eq_some_iff.mp found).1
    rw [length_byteTable] at bounded
    exact inside (Nat.le_of_lt_succ bounded)

theorem byteTable_isByteTable (source : Text) : IsByteTable source (byteTable 0 source) := by
  have entry {b : Nat} (inside : b ≤ Text.utf8Size source) :
      (byteTable 0 source)[b]? = some (Text.charOfByte source b) := by
    rw [getElem?_byteTable inside, Nat.zero_add]
  refine ⟨?_, ?_, fun i b starts ends => ?_, ?_⟩
  · rw [length_byteTable, Text.length_utf8]
  · rw [List.pairwise_iff_getElem]
    intro a b inA inB before
    rw [length_byteTable] at inA inB
    have first := (List.getElem?_eq_some_iff.mp (entry (Nat.le_of_lt_succ inA))).2
    have second := (List.getElem?_eq_some_iff.mp (entry (Nat.le_of_lt_succ inB))).2
    rw [first, second]
    exact Text.charOfByte_mono source (Nat.le_of_lt before)
  · rw [Text.length_utf8] at starts ends
    exact getElem?_byteTable_iff.mpr (.inl ⟨starts, ends⟩)
  · rw [Text.length_utf8]
    exact getElem?_byteTable_iff.mpr (.inr ⟨rfl, rfl⟩)

/-- Each ASCII character has one entry, so the table counts up. -/
theorem byteTable_of_isAscii {t : Text} (ascii : t.all Text.isAscii = true) (i : Nat) :
    byteTable i t = List.range' i (t.length + 1) := by
  induction t generalizing i with
  | nil => rfl
  | cons c rest ih =>
    rw [List.all_cons, Bool.and_eq_true] at ascii
    rw [byteTable, Text.utf8Size_of_isAscii ascii.1, ih ascii.2, List.length_cons,
      List.range'_succ (n := rest.length + 1)]
    rfl

theorem byteMap?_eq_none_iff {source : Text} :
    byteMap? source = none ↔ source.all Text.isAscii = true := by
  rw [byteMap?]
  split <;> simp [*]

theorem eq_byteTable_of_byteMap? {source : Text} {table : List Nat}
    (found : byteMap? source = some table) : table = byteTable 0 source := by
  unfold byteMap? at found
  split at found
  · cases found
  · exact (Option.some.inj found).symm

/-- A source has no byte map exactly if it is ASCII, and then the identity is the table of its
bytes. A byte map that there is has the character of each byte. Either way, what is looked up is the
entry of the table. -/
theorem byteMap?_inverts_utf8 (source : Text) :
    (byteMap? source = none ↔ ∀ c ∈ source, c.toNat < 128) ∧
    (byteMap? source = none → IsByteTable source (List.range ((Text.utf8 source).length + 1))) ∧
    (∀ table, byteMap? source = some table → IsByteTable source table) ∧
    ∀ table, IsByteTable source table → ∀ b offset : Nat, table[b]? = some offset →
      (Encoded.ofText source).charOffset b = .ok offset := by
  refine ⟨?_, fun absent => ?_, fun table found => ?_, fun table isTable b offset entry => ?_⟩
  · rw [byteMap?_eq_none_iff, List.all_eq_true]
    simp only [Text.isAscii, decide_eq_true_eq]
  · have isTable := byteTable_isByteTable source
    have ascii := byteMap?_eq_none_iff.mp absent
    have identity := byteTable_of_isAscii ascii 0
    have length : (Text.utf8 source).length = source.length := by
      have sizes := isTable.length_eq
      rw [identity, List.length_range'] at sizes
      omega
    rwa [identity, ← List.range_eq_range', ← length] at isTable
  · rw [eq_byteTable_of_byteMap? found]
    exact byteTable_isByteTable source
  · have inside : b ≤ Text.utf8Size source := by
      have bounded := (List.getElem?_eq_some_iff.mp entry).1
      rw [isTable.length_eq, Text.length_utf8] at bounded
      exact Nat.le_of_lt_succ bounded
    rw [isTable.getElem?_eq inside] at entry
    rw [Encoded.charOffset_ofText (Int.natCast_nonneg b) (Int.ofNat_le.mpr inside),
      Int.toNat_natCast, Option.some.inj entry]

end JavaSurvey
