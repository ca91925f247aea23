import JavaSurvey.Proofs.Json.Grammar

/-!
# Writing JSON

The text of a value follows the grammar, at every level, and is made of ASCII characters.

1. `writtenChar_writeChar` and `numeral_toString`: characters and numbers are written by their
   rules;
2. `written_write`: so is every value;
3. `isAscii_write`: no other characters than those of ASCII are written.
-/

namespace JavaSurvey.Json

/-- What holds of a value if it holds of its parts holds of every value. -/
@[elab_as_elim]
theorem induction {motive : Json → Prop} (null : motive .null) (bool : ∀ b, motive (.bool b))
    (int : ∀ n, motive (.int n)) (str : ∀ s, motive (.str s))
    (list : ∀ items, (∀ j ∈ items, motive j) → motive (.list items))
    (object : ∀ fields, (∀ f ∈ fields, motive f.2) → motive (.object fields)) (j : Json) :
    motive j := by
  cases j with
  | null => exact null
  | bool b => exact bool b
  | int n => exact int n
  | str s => exact str s
  | list items =>
    refine list items ?_
    intro j inside
    exact induction null bool int str list object j
  | object fields =>
    refine object fields ?_
    intro f inside
    exact induction null bool int str list object f.2
termination_by sizeOf j
decreasing_by
  · have smaller := List.sizeOf_lt_of_mem inside
    simp only [Json.list.sizeOf_spec]
    omega
  · have smaller := List.sizeOf_lt_of_mem inside
    cases f
    simp only [Prod.mk.sizeOf_spec, Json.object.sizeOf_spec] at smaller ⊢
    omega

/-! ## Strings -/

theorem hexDigit_lt_sixteen : ∀ n < 16,
    hexValue? (Text.hexDigit n) = some n ∧ Text.isAscii (Text.hexDigit n) = true := by
  decide

/-- The four digits of a unit are read as this unit. -/
theorem unit?_hex {n : Nat} (small : n < 65536) : unit? (Text.hex 4 n) = some n := by
  have read (k : Nat) : hexValue? (Text.hexDigit (k % 16)) = some (k % 16) :=
    (hexDigit_lt_sixteen _ (Nat.mod_lt k (by decide))).1
  have value : ((n / 16 / 16 / 16 % 16 * 16 + n / 16 / 16 % 16) * 16 + n / 16 % 16) * 16 + n % 16
      = n := by
    omega
  simp [Text.hex, unit?, read, value]

theorem isAscii_hex (width n : Nat) : (Text.hex width n).all Text.isAscii = true := by
  induction width generalizing n with
  | zero => rfl
  | succ width ih =>
    have digit := (hexDigit_lt_sixteen _ (Nat.mod_lt n (by decide))).2
    simp [Text.hex, ih, digit]

/-- A pair of units stands for a character beyond the first 65536. -/
theorem writtenChar_pair {c : Char} (large : 65536 ≤ c.toNat) :
    WrittenChar c (unitEscape (0xD800 + (c.toNat - 65536) / 1024) ++
      unitEscape (0xDC00 + (c.toNat - 65536) % 1024)) := by
  have valid : c.toNat.isValidChar := c.valid
  unfold Nat.isValidChar at valid
  have isHigh : IsHigh (0xD800 + (c.toNat - 65536) / 1024) := by
    unfold IsHigh
    omega
  have isLow : IsLow (0xDC00 + (c.toNat - 65536) % 1024) := by
    unfold IsLow
    omega
  refine .pair (unit?_hex ?_) (unit?_hex ?_) isHigh isLow ?_
  · omega
  · omega
  · unfold pairValue
    omega

theorem WrittenChar.of_short {c d e : Char} (same : c = d) (listed : (e, d) ∈ shortEscapes) :
    WrittenChar c ['\\', e] := by
  subst same
  exact .short listed

/-- A character is written by one of the rules. -/
theorem writtenChar_writeChar (c : Char) : WrittenChar c (writeChar c) := by
  unfold writeChar
  split
  next same => exact .of_short same (by simp [shortEscapes])
  next noQuote =>
  split
  next same => exact .of_short same (by simp [shortEscapes])
  next noEscape =>
  split
  next same => exact .of_short same (by simp [shortEscapes])
  split
  next same => exact .of_short same (by simp [shortEscapes])
  split
  next same => exact .of_short same (by simp [shortEscapes])
  split
  next same =>
    have char : c = '\x08' := Char.toNat_inj.mp same
    exact .of_short char (by simp [shortEscapes])
  split
  next same =>
    have char : c = '\x0c' := Char.toNat_inj.mp same
    exact .of_short char (by simp [shortEscapes])
  split
  next visible => exact .plain visible.1 noQuote noEscape
  split
  next small => exact .unit (unit?_hex small)
  next large => exact writtenChar_pair (Nat.not_lt.mp large)

theorem isAscii_writeChar (c : Char) : (writeChar c).all Text.isAscii = true := by
  unfold writeChar
  repeat' split
  all_goals first | decide | simp [unitEscape, isAscii_hex, Text.isAscii]
  -- The character itself is left, which can be shown.
  omega

theorem writtenChars_flatMap (s : Text) : WrittenChars s (s.flatMap writeChar) := by
  induction s with
  | nil => exact .nil
  | cons c s ih => exact .cons (writtenChar_writeChar c) ih

theorem writtenString_writeString (s : String) : WrittenString s (writeString s) :=
  .quoted (writtenChars_flatMap s.toList)

theorem isAscii_writeString (s : String) : (writeString s).all Text.isAscii = true := by
  have inside : (s.toList.flatMap writeChar).all Text.isAscii = true := by
    rw [List.all_flatMap, List.all_eq_true]
    intro c _
    exact isAscii_writeChar c
  simp [writeString, inside, Text.isAscii]

/-! ## Numbers -/

/-- Several digits of a number do not start with a zero. -/
theorem toDigits_eq_zero_of_head? (n : Nat) (zero : (Nat.toDigits 10 n).head? = some '0') :
    Nat.toDigits 10 n = ['0'] := by
  induction n using Nat.strongRecOn with
  | ind n ih =>
    rw [Nat.toDigits_eq_if (by decide)] at zero ⊢
    split
    next small =>
      rw [if_pos small] at zero
      rw [Option.some.inj zero]
    next large =>
      -- The digits before the last one would be those of zero.
      exfalso
      obtain ⟨d, more, first⟩ := List.exists_cons_of_ne_nil
        (Nat.toDigits_ne_nil : Nat.toDigits 10 (n / 10) ≠ [])
      rw [if_neg large, first] at zero
      have single := ih (n / 10) (by omega) (by rw [first]; exact zero)
      have value : Nat.ofDigitChars 10 ['0'] 0 = n / 10 := by
        rw [← single]
        exact Nat.ofDigitChars_ten_toDigits
      have none : Nat.ofDigitChars 10 ['0'] 0 = 0 := rfl
      omega

theorem digits_toDigits (n : Nat) : Digits (Nat.toDigits 10 n) where
  nonempty := Nat.toDigits_ne_nil
  digits c inside := Nat.isDigit_of_mem_toDigits (by decide) (by decide) inside
  leading := toDigits_eq_zero_of_head? n

/-- An integer is written by one of the rules. -/
theorem numeral_toString (n : Int) : Numeral n (toString n).toList := by
  rw [Int.toString_eq_repr, Int.repr_eq_if]
  split
  next natural =>
    have numeral := Numeral.natural (digits_toDigits n.toNat)
    rw [Nat.ofDigitChars_ten_toDigits, Int.toNat_of_nonneg natural] at numeral
    rwa [Nat.toList_repr]
  next negative =>
    have numeral := Numeral.negative (digits_toDigits (-n).toNat)
    rw [Nat.ofDigitChars_ten_toDigits, Int.toNat_of_nonneg (by omega), Int.neg_neg] at numeral
    rwa [String.toList_append, Nat.toList_repr]

theorem Digits.isAscii {t : Text} (digits : Digits t) : t.all Text.isAscii = true := by
  rw [List.all_eq_true]
  intro c inside
  have range := Char.isDigit_iff_toNat.mp (digits.digits c inside)
  exact decide_eq_true (Nat.lt_of_le_of_lt range.2 (by decide))

theorem Numeral.isAscii {n : Int} {t : Text} (numeral : Numeral n t) :
    t.all Text.isAscii = true := by
  cases numeral with
  | natural digits => exact digits.isAscii
  | negative digits =>
    rw [List.all_cons, digits.isAscii]
    rfl

/-! ## Values -/

theorem blank_nil : Blank [] := by
  simp [Blank]

theorem blank_newline (level : Nat) : Blank (newline level) := by
  intro c inside
  rcases List.mem_cons.mp inside with rfl | inside
  · rfl
  · rw [List.eq_of_mem_replicate inside]
    rfl

/-- Items follow the grammar between blanks, if each of them does. -/
theorem written_items {level : Nat} {w v : Text} (before : Blank w) (after : Blank v) (x : Json)
    (xs : List Json) (each : ∀ j ∈ x :: xs, Written (.value j) (write level j)) :
    Written (.items (x :: xs)) (w ++ write level x ++ writeItems level xs ++ v) := by
  induction xs generalizing w x with
  | nil =>
    have item := Written.padded before (each x List.mem_cons_self) after
    simpa [writeItems] using item.lastItem
  | cons y ys ih =>
    rw [List.forall_mem_cons] at each
    have item := Written.padded before each.1 blank_nil
    have rest := ih (blank_newline level) y each.2
    simpa [writeItems] using item.items rest

/-- A field follows the grammar after blanks, if its value does. -/
theorem written_field {level : Nat} {w v : Text} (before : Blank w) (after : Blank v)
    (f : String × Json) (value : Written (.value f.2) (write level f.2)) :
    Written (.field f) (w ++ writeField level f ++ v) := by
  obtain ⟨key, j⟩ := f
  have blank : Blank [' '] := by simp [Blank, isSpace]
  have field := Written.field before (writtenString_writeString key) blank_nil
    (Written.padded blank value after)
  simpa [writeField] using field

/-- Fields follow the grammar between blanks, if the value of each does. -/
theorem written_fields {level : Nat} {w v : Text} (before : Blank w) (after : Blank v)
    (x : String × Json) (xs : List (String × Json))
    (each : ∀ f ∈ x :: xs, Written (.value f.2) (write level f.2)) :
    Written (.fields (x :: xs)) (w ++ writeField level x ++ writeFields level xs ++ v) := by
  induction xs generalizing w x with
  | nil =>
    have field := written_field before after x (each x List.mem_cons_self)
    simpa [writeFields] using field.lastField
  | cons y ys ih =>
    rw [List.forall_mem_cons] at each
    have field := written_field before blank_nil x each.1
    have rest := ih (blank_newline level) y each.2
    simpa [writeFields] using field.fields rest

/-- What is written for a value follows the grammar. -/
theorem written_write (level : Nat) (j : Json) : Written (.value j) (write level j) := by
  induction j using Json.induction generalizing level with
  | null => exact .null
  | bool b =>
    cases b
    · exact .false
    · exact .true
  | int n => exact .int (numeral_toString n)
  | str s => exact .str (writtenString_writeString s)
  | list items ih =>
    cases items with
    | nil => exact .emptyList blank_nil
    | cons x xs =>
      have written := written_items (blank_newline (level + 1)) (blank_newline level) x xs
        (fun j inside => ih j inside (level + 1))
      simpa [write] using written.list
  | object fields ih =>
    cases fields with
    | nil => exact .emptyObject blank_nil
    | cons x xs =>
      have written := written_fields (blank_newline (level + 1)) (blank_newline level) x xs
        (fun f inside => ih f inside (level + 1))
      simpa [write] using written.object

/-! ### ASCII -/

theorem isAscii_newline (level : Nat) : (newline level).all Text.isAscii = true := by
  simp [newline, List.all_replicate, Text.isAscii]

theorem isAscii_writeItems {level : Nat} {items : List Json}
    (each : ∀ j ∈ items, (write level j).all Text.isAscii = true) :
    (writeItems level items).all Text.isAscii = true := by
  induction items with
  | nil => rfl
  | cons x xs ih =>
    rw [List.forall_mem_cons] at each
    simp [writeItems, isAscii_newline, each.1, ih each.2, Text.isAscii]

theorem isAscii_writeField {level : Nat} {f : String × Json}
    (value : (write level f.2).all Text.isAscii = true) :
    (writeField level f).all Text.isAscii = true := by
  obtain ⟨key, j⟩ := f
  simp [writeField, isAscii_writeString, value, Text.isAscii]

theorem isAscii_writeFields {level : Nat} {fields : List (String × Json)}
    (each : ∀ f ∈ fields, (write level f.2).all Text.isAscii = true) :
    (writeFields level fields).all Text.isAscii = true := by
  induction fields with
  | nil => rfl
  | cons x xs ih =>
    rw [List.forall_mem_cons] at each
    simp [writeFields, isAscii_newline, isAscii_writeField each.1, ih each.2, Text.isAscii]

/-- What is written for a value is made of ASCII characters. -/
theorem isAscii_write (level : Nat) (j : Json) : (write level j).all Text.isAscii = true := by
  induction j using Json.induction generalizing level with
  | null => rfl
  | bool b => cases b <;> rfl
  | int n => exact (numeral_toString n).isAscii
  | str s => exact isAscii_writeString s
  | list items ih =>
    cases items with
    | nil => rfl
    | cons x xs =>
      have each : ∀ j ∈ x :: xs, (write (level + 1) j).all Text.isAscii = true :=
        fun j inside => ih j inside (level + 1)
      rw [List.forall_mem_cons] at each
      simp [write, isAscii_newline, each.1, isAscii_writeItems each.2, Text.isAscii]
  | object fields ih =>
    cases fields with
    | nil => rfl
    | cons x xs =>
      have each : ∀ f ∈ x :: xs, (write (level + 1) f.2).all Text.isAscii = true :=
        fun f inside => ih f inside (level + 1)
      rw [List.forall_mem_cons] at each
      simp [write, isAscii_newline, isAscii_writeField each.1, isAscii_writeFields each.2,
        Text.isAscii]

end JavaSurvey.Json
