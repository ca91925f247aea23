import JavaSurvey.Proofs.Syntax.Tokens

/-!
# Conversion of concrete trees

What a concrete tree becomes, told by the rules for its nodes and without the loop that reads it,
its tables, its byte map and its stack.

1. `Label.Fills` names the slot of a node, and `Label.Spells` says what token a leaf is;
2. `Concrete.Converts` says what elements trees become, with the children of every node slot by
   slot;
3. `Encoded.token?_eq_some_iff` and `Concrete.elements_eq_ok_iff`: reading leaves and trees follows
   these rules;
4. `readTree_iff_converts`: so the loop returns a tree exactly if the rules give it.
-/

namespace JavaSurvey

/-! ## Rules -/

/-- The slot of a node has the name of its field, or of its kind if the field is absent or has an
empty name. -/
inductive Label.Fills (l : Label) : String → Prop
  | field {name : String} (named : l.field = some name) (nonempty : name ≠ "") : l.Fills name
  | absent (unnamed : l.field = none) : l.Fills l.kind
  | empty (unnamed : l.field = some "") : l.Fills l.kind

/-- The offset of the character at a byte. -/
inductive Text.CharacterAt (source : Text) : Int → Int → Prop
  /-- The character that holds the byte. -/
  | held {i b : Nat} (holds : source.HoldsByte i b) : CharacterAt source b i
  /-- Where all characters are single bytes, every offset stands for itself. -/
  | ascii {b : Int} (single : ∀ c ∈ source, c.toNat < 128) : CharacterAt source b b
  /-- Anywhere else a negative offset counts from the end, so that `-1` is the byte after the
  last. -/
  | backwards {i b : Nat} (wide : ∃ c ∈ source, 128 ≤ c.toNat) (holds : source.HoldsByte i b) :
      CharacterAt source (b - (Text.utf8 source).length - 1) i

/-- A token is what a leaf spans: the text of its bytes, with the offset of its first character, and
that of its last one if it comes later. -/
structure Label.Spells (l : Label) (source : Text) (t : Token) : Prop where
  image : t.image.toList = Text.ofUtf8 (Text.slice (Text.utf8 source) l.startByte l.endByte)
  starts : source.CharacterAt l.startByte t.start
  ends : ∃ stop, source.CharacterAt l.endByte stop ∧
    (t.start + 1 < stop ∧ t.finish = some (stop - 1) ∨ stop ≤ t.start + 1 ∧ t.finish = none)

/-- Trees become elements, one after the other. A leaf becomes a token in its slot, or nothing if it
spans no byte. Any other tree becomes a node of its kind, whose children are slot by slot what the
trees below become. -/
inductive Concrete.Converts (source : Text) : List Concrete → List Element → Prop
  | nil : Converts source [] []
  | blank {l : Label} {rest : List Concrete} {es : List Element} (empty : l.endByte ≤ l.startByte)
      (others : Converts source rest es) : Converts source (.mk l [] :: rest) es
  | leaf {l : Label} {rest : List Concrete} {slot : String} {t : Token} {es : List Element}
      (written : l.startByte < l.endByte) (fills : l.Fills slot) (spells : l.Spells source t)
      (others : Converts source rest es) :
      Converts source (.mk l [] :: rest) (.token slot t :: es)
  | node {l : Label} {c : Concrete} {cs rest : List Concrete} {slot : String}
      {below es : List Element} (fills : l.Fills slot) (children : Converts source (c :: cs) below)
      (others : Converts source rest es) :
      Converts source (.mk l (c :: cs) :: rest) (.node slot l.kind (regroup below) :: es)

/-! ## Slots and tokens -/

theorem Concrete.fills_slot (c : Concrete) : c.label.Fills c.slot := by
  unfold slot
  split
  · next name field =>
    split
    · next empty =>
      rw [String.isEmpty_iff.mp empty] at field
      exact .empty field
    · next nonempty => exact .field field fun empty => nonempty (String.isEmpty_iff.mpr empty)
  · next field => exact .absent field

theorem Label.Fills.unique {l : Label} {slot other : String} (fills : l.Fills slot)
    (fillsToo : l.Fills other) : slot = other := by
  cases fills <;> cases fillsToo <;> simp_all

namespace Encoded

/-- A table has offsets, which can also be looked up backwards. -/
theorem charOffset_eq_ok_of_table {src : Encoded} {table : Array Nat}
    (isTable : src.map? = some table) {b offset : Int} :
    src.charOffset b = .ok offset ↔
      ∃ k i : Nat, table[k]? = some i ∧ offset = i ∧ (b = k ∨ b = k - table.size) := by
  unfold charOffset
  rw [isTable]
  dsimp only
  generalize isPlace : (if b < 0 then b + (table.size : Int) else b) = place
  constructor
  · intro found
    have counted : b = place ∨ b = place - table.size := by split at isPlace <;> omega
    by_cases before : place < 0
    · rw [if_pos before] at found
      cases found
    · rw [if_neg before] at found
      cases entry : table[place.toNat]? with
      | none =>
        rw [entry] at found
        cases found
      | some i =>
        rw [entry] at found
        cases found
        exact ⟨_, i, entry, rfl, by omega⟩
  · rintro ⟨k, i, entry, rfl, counted⟩
    have bounded := (Array.getElem?_eq_some_iff.mp entry).1
    obtain rfl : place = k := by split at isPlace <;> omega
    rw [if_neg (by omega), Int.toNat_natCast, entry]

theorem charOffset_eq_ok_iff {source : Text} {b offset : Int} :
    (ofText source).charOffset b = .ok offset ↔ source.CharacterAt b offset := by
  by_cases ascii : source.all Text.isAscii = true
  · have same : (ofText source).charOffset b = .ok b := by
      simp only [charOffset, ofText, byteMap?, ascii, if_true, Option.map_none]
    have single : ∀ c ∈ source, c.toNat < 128 := by simpa [Text.isAscii] using ascii
    rw [same]
    constructor
    · rintro ⟨⟩
      exact .ascii single
    · rintro (@⟨i, b, holds⟩ | _ | ⟨⟨c, member, wide⟩, -⟩)
      · rw [(Text.holdsByte_iff holds.le_size).mp holds,
          Text.charOfByte_of_isAscii ascii holds.le_size]
      · rfl
      · exact absurd (single c member) (Nat.not_lt.mpr wide)
  · have isTable : (ofText source).map? = some (byteTable 0 source).toArray := by
      simp only [ofText, byteMap?, ascii, if_false, Option.map_some, Bool.false_eq_true]
    have wide : ∃ c ∈ source, 128 ≤ c.toNat := by simpa [Text.isAscii] using ascii
    have size : ((byteTable 0 source).toArray.size : Int) = (Text.utf8 source).length + 1 := by
      rw [List.size_toArray, length_byteTable, Text.length_utf8]
      rfl
    rw [charOffset_eq_ok_of_table isTable, size]
    simp only [List.getElem?_toArray, getElem?_byteTable_iff, ← Int.sub_sub]
    constructor
    · rintro ⟨k, i, holds, rfl, rfl | rfl⟩
      · exact .held holds
      · exact .backwards wide holds
    · rintro (⟨holds⟩ | single | ⟨-, holds⟩)
      · exact ⟨_, _, holds, rfl, .inl rfl⟩
      · obtain ⟨c, member, wide⟩ := wide
        exact absurd (single c member) (Nat.not_lt.mpr wide)
      · exact ⟨_, _, holds, rfl, .inr rfl⟩

/-- A leaf is read as a token exactly if it spans some byte and the token is what it spells. -/
theorem token?_eq_some_iff {source : Text} {l : Label} {t : Token} :
    (ofText source).token? l = .ok (some t) ↔ l.startByte < l.endByte ∧ l.Spells source t := by
  unfold token?
  by_cases written : l.startByte < l.endByte
  · rw [if_pos written, and_iff_right written]
    constructor
    · intro read
      split at read
      · next start stop starts ends =>
        cases read
        refine ⟨?_, charOffset_eq_ok_iff.mp starts, stop, charOffset_eq_ok_iff.mp ends, ?_⟩
        · rw [textBetween, String.toList_ofList]
          rfl
        · dsimp only
          split
          · exact .inl ⟨by omega, rfl⟩
          · exact .inr ⟨by omega, rfl⟩
      · cases read
      · cases read
    · rintro ⟨image, starts, stop, ends, finish⟩
      rw [charOffset_eq_ok_iff.mpr starts, charOffset_eq_ok_iff.mpr ends]
      obtain ⟨text, start, last⟩ := t
      have isText : text = (ofText source).textBetween l.startByte l.endByte :=
        String.ext (image.trans String.toList_ofList.symm)
      have isLast : last = if start < stop - 1 then some (stop - 1) else none := by
        rcases finish with ⟨later, rfl⟩ | ⟨single, rfl⟩
        · rw [if_pos (by dsimp only at later; omega)]
        · rw [if_neg (by dsimp only at single; omega)]
      rw [isText, isLast]
  · rw [if_neg written]
    constructor
    · intro read
      cases read
    · intro both
      exact absurd both.1 written

theorem token?_eq_none {src : Encoded} {l : Label} (unread : src.token? l = .ok none) :
    l.endByte ≤ l.startByte := by
  unfold token? at unread
  split at unread
  · split at unread <;> cases unread
  · next unwritten => exact Int.not_lt.mp unwritten

end Encoded

namespace Concrete

theorem elements_of_converts {source : Text} {cs : List Concrete} {es : List Element}
    (converts : Converts source cs es) : elements (Encoded.ofText source) cs = .ok es := by
  induction converts with
  | nil => rfl
  | blank empty _ rest =>
    rw [elements, element?, rest, Encoded.token?, if_neg (Int.not_lt.mpr empty)]
    rfl
  | @leaf l _ _ _ _ written fills spells _ rest =>
    have slot := (mk l []).fills_slot.unique fills
    rw [elements, element?, rest, Encoded.token?_eq_some_iff.mpr ⟨written, spells⟩, slot]
    rfl
  | @node l c cs _ _ _ _ fills _ _ below rest =>
    have slot := (mk l (c :: cs)).fills_slot.unique fills
    rw [elements, element?, below, rest, slot]
    rfl

mutual

theorem converts_of_element? {source : Text} {c : Concrete} {found : Option Element}
    (read : element? (Encoded.ofText source) c = .ok found) {rest : List Concrete}
    {es : List Element} (others : Converts source rest es) :
    Converts source (c :: rest) (found.toList ++ es) := by
  obtain ⟨l, _ | ⟨d, ds⟩⟩ := c
  · obtain ⟨_ | t, token, rfl⟩ := element?_leaf_ok read
    · exact .blank (Encoded.token?_eq_none token) others
    · obtain ⟨written, spells⟩ := Encoded.token?_eq_some_iff.mp token
      exact .leaf written (mk l []).fills_slot spells others
  · obtain ⟨below, readBelow, rfl⟩ := element?_node_ok read
    exact .node (mk l (d :: ds)).fills_slot (converts_of_elements readBelow) others

theorem converts_of_elements {source : Text} {cs : List Concrete} {es : List Element}
    (read : elements (Encoded.ofText source) cs = .ok es) : Converts source cs es := by
  cases cs with
  | nil =>
    cases read
    exact .nil
  | cons c rest =>
    obtain ⟨found, others, first, second, rfl⟩ := elements_cons_ok read
    exact converts_of_element? first (converts_of_elements second)

end

/-- Trees are read as elements exactly if the rules give these. -/
theorem elements_eq_ok_iff {source : Text} {cs : List Concrete} {es : List Element} :
    elements (Encoded.ofText source) cs = .ok es ↔ Converts source cs es :=
  ⟨converts_of_elements, elements_of_converts⟩

mutual

theorem element?_isOk_iff (src : Encoded) (c : Concrete) :
    (∃ found, element? src c = .ok found) ↔ ∀ l ∈ c.leaves, ∃ found, src.token? l = .ok found := by
  obtain ⟨l, _ | ⟨d, ds⟩⟩ := c
  · rw [leaves, element?, List.forall_mem_singleton]
    cases src.token? l <;> simp
  · rw [leaves, element?, ← elements_isOk_iff]
    cases elements src (d :: ds) <;> simp

/-- Trees are read exactly if each of their leaves is. -/
theorem elements_isOk_iff (src : Encoded) (cs : List Concrete) :
    (∃ es, elements src cs = .ok es) ↔ ∀ l ∈ leavesAll cs, ∃ found, src.token? l = .ok found := by
  cases cs with
  | nil => simp [elements, leavesAll]
  | cons c rest =>
    rw [leavesAll, List.forall_mem_append, ← element?_isOk_iff, ← elements_isOk_iff, elements]
    cases element? src c <;> cases elements src rest <;> simp

end

end Concrete

/-- A leaf is read exactly if it spans no byte or spells a token. -/
theorem Encoded.token?_isOk_iff {source : Text} {l : Label} :
    (∃ found, (ofText source).token? l = .ok found) ↔
      (l.isWritten = true → ∃ t, l.Spells source t) := by
  constructor
  · rintro ⟨_ | t, read⟩ written
    · exact absurd (token?_eq_none read) (Int.not_le.mpr (of_decide_eq_true written))
    · exact ⟨t, (token?_eq_some_iff.mp read).2⟩
  · intro spelled
    cases written : l.isWritten with
    | false => exact ⟨none, token?_unwritten _ written⟩
    | true =>
      obtain ⟨t, spells⟩ := spelled written
      exact ⟨some t, token?_eq_some_iff.mpr ⟨of_decide_eq_true written, spells⟩⟩

/-- The loop returns a tree exactly if the rules for trees give it. It fails only at a leaf that
spans some byte and spells no token, which no leaf within the source does. A leaf between characters
spells just the characters that it spans. -/
theorem readTree_iff_converts (source : Text) (tree : Concrete) :
    let read := readTree (Encoded.ofText source) tree
    let written := (Concrete.leavesAll tree.children).filter Label.isWritten
    (∀ root, read = .ok root ↔
      ∃ es, Concrete.Converts source tree.children es ∧ root = ⟨tree.label.kind, regroup es⟩) ∧
    ((∃ root, read = .ok root) ↔ ∀ l ∈ written, ∃ t, l.Spells source t) ∧
    ((∀ l ∈ written, l.Within (Text.utf8 source).length) → ∃ root, read = .ok root) ∧
    ∀ l ∈ written, l.Aligned source → ∀ t, l.Spells source t ↔ t = l.token source := by
  intro read written
  have loop : read = tree.toNode (Encoded.ofText source) := readTree_eq_toNode _ tree
  have rules : ∀ root, read = .ok root ↔
      ∃ es, Concrete.Converts source tree.children es ∧ root = ⟨tree.label.kind, regroup es⟩ := by
    intro root
    rw [loop, Concrete.toNode_ok_iff]
    simp only [Concrete.elements_eq_ok_iff]
  have returns : (∃ root, read = .ok root) ↔ ∀ l ∈ written, ∃ t, l.Spells source t := by
    have leaves := Concrete.elements_isOk_iff (Encoded.ofText source) tree.children
    simp only [Encoded.token?_isOk_iff, Concrete.elements_eq_ok_iff] at leaves
    simp only [rules, written, List.mem_filter, and_imp, ← leaves]
    exact ⟨fun ⟨_, es, converts, _⟩ => ⟨es, converts⟩, fun ⟨es, converts⟩ => ⟨_, es, converts, rfl⟩⟩
  refine ⟨rules, returns, fun within => returns.mpr fun l member => ?_, ?_⟩
  · obtain ⟨found, token, -⟩ := Encoded.token?_ok (within l member)
    exact Encoded.token?_isOk_iff.mp ⟨found, token⟩ (List.mem_filter.mp member).2
  · intro l member aligned t
    have isWritten := (List.mem_filter.mp member).2
    have token := Encoded.token?_aligned isWritten aligned
    constructor
    · intro spells
      have same := Encoded.token?_eq_some_iff.mpr ⟨of_decide_eq_true isWritten, spells⟩
      rw [token] at same
      cases same
      rfl
    · rintro rfl
      exact (Encoded.token?_eq_some_iff.mp token).2

end JavaSurvey
