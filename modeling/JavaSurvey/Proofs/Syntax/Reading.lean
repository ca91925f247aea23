import JavaSurvey.Proofs.Syntax.ByteMap
import JavaSurvey.Proofs.Syntax.Loop
import JavaSurvey.Proofs.Syntax.Walk

/-!
# Trees with spans inside the source

A concrete tree may be any tree, as long as its spans lie within the bytes of the source: spans
may cut a character, leaves may span nothing, and any child may be missing. Reading such a tree
fails only where the grammar marked a fault.

1. `Concrete.elements_ok`: every leaf becomes a token inside the text, or nothing;
2. `parse_ok` and `parse_fault`: an accepted tree is read, and a faulty one is refused at its first
   fault.
-/

namespace JavaSurvey

/-- The bytes of a node are in order and lie within the first `size`. -/
structure Label.Within (l : Label) (size : Nat) : Prop where
  nonneg : 0 ≤ l.startByte
  ordered : l.startByte ≤ l.endByte
  bounded : l.endByte ≤ size

instance (l : Label) (size : Nat) : Decidable (l.Within size) :=
  decidable_of_iff (0 ≤ l.startByte ∧ l.startByte ≤ l.endByte ∧ l.endByte ≤ size)
    ⟨fun ⟨a, b, c⟩ => ⟨a, b, c⟩, fun ⟨a, b, c⟩ => ⟨a, b, c⟩⟩

/-- Every node of a tree spans bytes of the source. -/
def Concrete.SpansWithin (source : Text) (root : Concrete) : Prop :=
  ∀ c ∈ root.preorder, c.label.Within (Text.utf8 source).length

instance (source : Text) (root : Concrete) : Decidable (root.SpansWithin source) :=
  inferInstanceAs (Decidable (∀ c ∈ root.preorder, c.label.Within (Text.utf8 source).length))

/-! ## Reading within the source -/

namespace Encoded

/-- A leaf that spans bytes of the source becomes a token of the text, or nothing. The order of the
token's ends holds by its construction: the end of a span that cuts a character may be mapped
before its start. -/
theorem token?_ok {source : Text} {l : Label} (within : l.Within (Text.utf8 source).length) :
    ∃ found, (ofText source).token? l = .ok found ∧ ∀ t ∈ found, t.Within source.length := by
  rw [Text.length_utf8] at within
  obtain ⟨nonneg, ordered, bounded⟩ := within
  unfold token?
  split
  · next nonempty =>
    rw [charOffset_ofText nonneg (by omega), charOffset_ofText (by omega) bounded]
    refine ⟨_, rfl, ?_⟩
    rintro t ⟨⟩
    have first : Text.charOfByte source l.startByte.toNat < source.length :=
      Text.charOfByte_lt (by omega)
    have last := Text.charOfByte_le source l.endByte.toNat
    -- A token that would end before its start is a single character.
    constructor
    · simp
    · simp only [Token.last]
      split
      · simp
        omega
      · simp
    · simp only [Token.last]
      split
      · simp
        omega
      · simp
        omega
  · exact ⟨none, rfl, fun t member => by cases member⟩

end Encoded

namespace Concrete

mutual

theorem element?_ok {source : Text} {c : Concrete} (spans : c.SpansWithin source) :
    ∃ found, element? (Encoded.ofText source) c = .ok found ∧
      ∀ e ∈ found, ∀ t ∈ e.tokens, t.Within source.length := by
  cases c with
  | mk l children =>
    cases children with
    | nil =>
      obtain ⟨found, read, inside⟩ := Encoded.token?_ok (spans (mk l []) (by simp [preorder]))
      refine ⟨found.map (Element.token (mk l []).slot), ?_, ?_⟩
      · simp only [element?]
        simp only [label] at read
        rw [read]
      · intro e member t holds
        obtain ⟨u, isToken, rfl⟩ := Option.map_eq_some_iff.mp member
        obtain rfl : t = u := by simpa [Element.tokens] using holds
        exact inside t isToken
    | cons c cs =>
      have below : ∀ d ∈ preorderAll (c :: cs), d.label.Within (Text.utf8 source).length :=
        fun d member => spans d (by simp [preorder, member])
      obtain ⟨es, read, inside⟩ := elements_ok below
      refine ⟨some (.node (mk l (c :: cs)).slot l.kind (regroup es)), ?_, ?_⟩
      · rw [element?, read]
      · rintro e ⟨⟩ t holds
        rw [Element.tokens, mem_tokensAll_regroup] at holds
        exact inside t holds

/-- Trees with spans inside the source are read, and all their tokens lie in the text. -/
theorem elements_ok {source : Text} {cs : List Concrete}
    (spans : ∀ c ∈ preorderAll cs, c.label.Within (Text.utf8 source).length) :
    ∃ es, elements (Encoded.ofText source) cs = .ok es ∧
      ∀ t ∈ Element.tokensAll es, t.Within source.length := by
  cases cs with
  | nil => exact ⟨[], rfl, fun t member => by simp [Element.tokensAll] at member⟩
  | cons c cs =>
    have firstSpans : c.SpansWithin source :=
      fun d member => spans d (by simp [preorderAll, member])
    have restSpans : ∀ d ∈ preorderAll cs, d.label.Within (Text.utf8 source).length :=
      fun d member => spans d (by simp [preorderAll, member])
    obtain ⟨found, first, insideFirst⟩ := element?_ok firstSpans
    obtain ⟨es, rest, insideRest⟩ := elements_ok restSpans
    refine ⟨found.toList ++ es, ?_, ?_⟩
    · rw [elements, first, rest]
    · intro t member
      rw [Element.tokensAll_append, List.mem_append] at member
      rcases member with inFirst | inRest
      · obtain ⟨e, present, holds⟩ := Element.mem_tokensAll.mp inFirst
        exact insideFirst e (by simpa using present) t holds
      · exact insideRest t inRest

end

/-! ## Faults -/

theorem preorder_eq (c : Concrete) : c.preorder = c :: preorderAll c.children := by
  cases c
  rfl

@[simp] theorem preorderAll_append (xs ys : List Concrete) :
    preorderAll (xs ++ ys) = preorderAll xs ++ preorderAll ys := by
  induction xs with
  | nil => rfl
  | cons x xs ih => simp [preorderAll, ih]

theorem mem_of_findFault {stack : List Concrete} {c : Concrete} (found : findFault stack = some c) :
    c ∈ preorderAll stack := by
  fun_induction findFault stack with
  | case1 => cases found
  | case2 d rest fault =>
    obtain rfl := Option.some.inj found
    simp [preorderAll, preorder_eq]
  | case3 d rest clean enters ih =>
    have member := ih found
    rw [preorderAll_append] at member
    rw [preorderAll, preorder_eq, List.cons_append]
    exact List.mem_cons_of_mem _ member
  | case4 d rest clean passes ih =>
    rw [preorderAll]
    exact List.mem_append_right _ (ih found)

/-- The first fault of a tree starts where some node of the tree starts. -/
theorem firstFaultByte_eq (root : Concrete) :
    ∃ c ∈ root.preorder, root.firstFaultByte = c.label.startByte := by
  unfold firstFaultByte
  split
  · next c found =>
    exact ⟨c, by simpa [preorderAll] using mem_of_findFault found, rfl⟩
  · exact ⟨root, by simp [preorder_eq], rfl⟩

end Concrete

/-! ## Parsing -/

theorem parse_accepted (source : Text) {tree : Concrete} (accepted : tree.label.hasError = false) :
    parse source tree = tree.toNode (Encoded.ofText source) := by
  simp [parse, accepted, readTree_eq_toNode]

theorem parse_refused (source : Text) {tree : Concrete} (faulty : tree.label.hasError = true)
    (root : Node) : parse source tree ≠ .ok root := by
  simp only [parse, faulty, if_true]
  split <;> exact nofun

theorem toNode_of_parse {source : Text} {tree : Concrete} {root : Node}
    (parsed : parse source tree = .ok root) : tree.toNode (Encoded.ofText source) = .ok root := by
  cases marked : tree.label.hasError with
  | true => exact absurd parsed (parse_refused source marked root)
  | false =>
    rw [parse_accepted source marked] at parsed
    exact parsed

/-- An accepted tree is read, and its tokens lie in the text. -/
theorem parse_ok {source : Text} {tree : Concrete} (accepted : tree.label.hasError = false)
    (spans : tree.SpansWithin source) :
    ∃ root, parse source tree = .ok root ∧ ∀ t ∈ root.tokens, t.Within source.length := by
  have below : ∀ c ∈ Concrete.preorderAll tree.children,
      c.label.Within (Text.utf8 source).length :=
    fun c member => spans c (by simp [Concrete.preorder_eq, member])
  obtain ⟨es, read, inside⟩ := Concrete.elements_ok below
  refine ⟨⟨tree.label.kind, regroup es⟩, ?_, ?_⟩
  · rw [parse_accepted source accepted, Concrete.toNode, read]
  · intro t member
    rw [Node.tokens_eq, mem_tokensAll_regroup] at member
    exact inside t member

/-- A faulty tree is refused, with the offset of the character that holds the first byte of its
first fault. -/
theorem parse_fault {source : Text} {tree : Concrete} (faulty : tree.label.hasError = true)
    (spans : tree.SpansWithin source) :
    parse source tree =
      .error (.syntaxError (Text.charOfByte source tree.firstFaultByte.toNat)) := by
  obtain ⟨c, member, equal⟩ := Concrete.firstFaultByte_eq tree
  obtain ⟨nonneg, ordered, bounded⟩ := spans c member
  rw [Text.length_utf8] at bounded
  have offset := Encoded.charOffset_ofText nonneg (Int.le_trans ordered bounded)
  simp [parse, faulty, equal, offset]

end JavaSurvey
