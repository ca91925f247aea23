import JavaSurvey.Proofs.Syntax.Reading
import JavaSurvey.Proofs.Text.Slices
import JavaSurvey.Proofs.Text.Utf8
import Mathlib.Data.List.Infix
import Mathlib.Data.List.Perm.Basic

/-!
# Tokens of leaves

A leaf spans bytes and a token spans characters. The offsets of a token go through the byte map and
its image through a slice of the bytes, so they agree only if the ends of the leaf are not inside a
character.

1. `Text.exists_parts`: two boundaries between characters cut a text into three parts, on which the
   byte map and the slice of the bytes agree;
2. `Encoded.token?_aligned`: an aligned leaf becomes the token `Label.token`, which has the very
   characters of the source;
3. `Concrete.elements_tokens`: by recursion on trees, the tokens of trees with aligned leaves are
   those of their leaves, up to the order of the slots;
4. `parse_tokens_faithful`: every token of a parsed source has the characters between its offsets.
-/

namespace JavaSurvey

/-! ## Boundaries -/

namespace Text

/-- A byte offset at which one part of a text ends and the other starts. -/
def IsBoundary (source : Text) (b : Int) : Prop :=
  ∃ front, front <+: source ∧ b = utf8Size front

instance (source : Text) (b : Int) : Decidable (IsBoundary source b) :=
  decidable_of_iff (∃ front ∈ source.inits, b = utf8Size front) (by
    simp only [IsBoundary, List.mem_inits])

theorem exists_parts {source : Text} {first last : Int} (starts : IsBoundary source first)
    (ends : IsBoundary source last) (ordered : first < last) :
    ∃ front middle back, source = front ++ middle ++ back ∧ first = utf8Size front ∧
      last = utf8Size (front ++ middle) ∧ middle ≠ [] := by
  obtain ⟨front, frontPrefix, rfl⟩ := starts
  obtain ⟨long, longPrefix, rfl⟩ := ends
  rcases List.prefix_or_prefix_of_prefix frontPrefix longPrefix with ⟨middle, rfl⟩ | ⟨middle, rfl⟩
  · obtain ⟨back, rfl⟩ := longPrefix
    refine ⟨front, middle, back, rfl, rfl, rfl, ?_⟩
    rintro rfl
    simp at ordered
  · rw [utf8Size_append] at ordered
    omega

end Text

/-! ## Leaves -/

/-- Whether a node spans any byte. -/
def Label.isWritten (l : Label) : Bool :=
  l.startByte < l.endByte

/-- The span of a node starts and ends between characters of the source. -/
structure Label.Aligned (l : Label) (source : Text) : Prop where
  starts : Text.IsBoundary source l.startByte
  ends : Text.IsBoundary source l.endByte

instance (l : Label) (source : Text) : Decidable (l.Aligned source) :=
  decidable_of_iff (Text.IsBoundary source l.startByte ∧ Text.IsBoundary source l.endByte)
    ⟨fun ⟨a, b⟩ => ⟨a, b⟩, fun ⟨a, b⟩ => ⟨a, b⟩⟩

/-- The token with the characters of the source that a leaf spans. -/
def Label.token (source : Text) (l : Label) : Token :=
  let first := Text.charOfByte source l.startByte.toNat
  let stop := Text.charOfByte source l.endByte.toNat
  { image := String.ofList (Text.slice source first stop)
    start := first
    finish := if stop = first + 1 then none else some (stop - 1) }

/-- A token has the characters of a source between its offsets, and leaves out its end exactly if it
is a single character. -/
structure Token.Faithful (t : Token) (source : Text) : Prop where
  within : t.Within source.length
  image : Text.slice source t.start (t.last + 1) = t.image.toList
  single : t.finish = none ↔ t.image.length = 1

/-- The token of a leaf that spans the middle one of three parts of the source. -/
theorem Label.token_parts {l : Label} {front middle back : Text}
    (starts : l.startByte = Text.utf8Size front)
    (ends : l.endByte = Text.utf8Size (front ++ middle)) :
    l.token (front ++ middle ++ back) = {
      image := String.ofList middle
      start := front.length
      finish := if middle.length = 1 then none else some (front.length + middle.length - 1) } := by
  have first : Text.charOfByte (front ++ middle ++ back) l.startByte.toNat = front.length := by
    rw [starts, Int.toNat_natCast, List.append_assoc, Text.charOfByte_boundary]
  have stop : Text.charOfByte (front ++ middle ++ back) l.endByte.toNat =
      front.length + middle.length := by
    rw [ends, Int.toNat_natCast, Text.charOfByte_boundary, List.length_append]
  have single : front.length + middle.length = front.length + 1 ↔ middle.length = 1 := by omega
  simp only [token, first, stop, single, Int.natCast_add, Text.slice_append]

theorem Label.token_faithful {source : Text} {l : Label} (written : l.isWritten = true)
    (aligned : l.Aligned source) : (l.token source).Faithful source := by
  have ordered : l.startByte < l.endByte := of_decide_eq_true written
  obtain ⟨front, middle, back, rfl, starts, ends, nonempty⟩ :=
    Text.exists_parts aligned.starts aligned.ends ordered
  rw [token_parts starts ends]
  have positive : 0 < middle.length := List.length_pos_iff.mpr nonempty
  have last : ({
      image := String.ofList middle
      start := front.length
      finish := if middle.length = 1 then none else some (front.length + middle.length - 1) } :
        Token).last = front.length + middle.length - 1 := by
    simp only [Token.last]
    split
    · next single => simp [single]
    · rfl
  refine ⟨⟨by simp, ?_, ?_⟩, ?_, ?_⟩
  · rw [last]
    dsimp only
    omega
  · rw [last]
    simp only [List.length_append]
    omega
  · rw [last]
    simp only [String.toList_ofList, Int.sub_add_cancel]
    exact Text.slice_append front middle back
  · simp

namespace Encoded

theorem textBetween_parts (front middle back : Text) :
    (ofText (front ++ middle ++ back)).textBetween (Text.utf8Size front)
      (Text.utf8Size (front ++ middle)) = String.ofList middle := by
  have slice := Text.slice_append (Text.utf8 front) (Text.utf8 middle) (Text.utf8 back)
  rw [Text.length_utf8, Text.length_utf8, ← Text.utf8_append, ← Text.utf8_append] at slice
  rw [textBetween, ofText, Text.utf8Size_append, Int.natCast_add, slice, Text.ofUtf8_utf8]

theorem token?_aligned {source : Text} {l : Label} (written : l.isWritten = true)
    (aligned : l.Aligned source) : (ofText source).token? l = .ok (some (l.token source)) := by
  have ordered : l.startByte < l.endByte := of_decide_eq_true written
  obtain ⟨front, middle, back, rfl, starts, ends, nonempty⟩ :=
    Text.exists_parts aligned.starts aligned.ends ordered
  have positive : 0 < middle.length := List.length_pos_iff.mpr nonempty
  have bounded : Text.utf8Size (front ++ middle) ≤ Text.utf8Size (front ++ middle ++ back) := by
    rw [Text.utf8Size_append (front ++ middle)]
    exact Nat.le_add_right _ _
  rw [Label.token_parts starts ends, token?, if_pos ordered]
  rw [starts, ends] at ordered ⊢
  rw [charOffset_ofText (by omega) (by omega), charOffset_ofText (by omega) (by omega),
    textBetween_parts, Int.toNat_natCast, Int.toNat_natCast, Text.charOfByte_boundary,
    List.append_assoc, Text.charOfByte_boundary, List.length_append]
  have several : (front.length : Int) < front.length + middle.length - 1 ↔
      ¬ middle.length = 1 := by omega
  simp only [Int.natCast_add, several, ite_not]

theorem token?_unwritten (src : Encoded) {l : Label} (unwritten : l.isWritten = false) :
    src.token? l = .ok none := by
  rw [token?, if_neg (of_decide_eq_false unwritten)]

end Encoded

/-! ## Slots -/

/-- Regrouping children by slot only changes their order. -/
theorem regroup_perm : ∀ children : List Element, (regroup children).Perm children
  | [] => List.Perm.nil
  | e :: rest => by
    rw [regroup_cons]
    have others := regroup_perm (rest.filter (!·.slot == e.slot))
    exact ((others.append_left _).trans (List.filter_append_perm _ rest)).cons e
termination_by children => children.length
decreasing_by
  exact Nat.lt_succ_of_le (List.length_filter_le _ rest)

theorem tokensAll_regroup_perm (es : List Element) :
    (Element.tokensAll (regroup es)).Perm (Element.tokensAll es) := by
  rw [Element.tokensAll_eq_flatMap, Element.tokensAll_eq_flatMap]
  exact (regroup_perm es).flatMap_right _

namespace Concrete

/-! ## Trees -/

mutual

/-- The leaves of a tree, in the order of the document. -/
def leaves : Concrete → List Label
  | mk l [] => [l]
  | mk _ (c :: cs) => leavesAll (c :: cs)

/-- The leaves of several trees, one tree after the other. -/
def leavesAll : List Concrete → List Label
  | [] => []
  | c :: rest => leaves c ++ leavesAll rest

end

/-- The leaves of a tree that span any byte, in the order of the document. -/
def writtenLeaves (c : Concrete) : List Label :=
  c.leaves.filter Label.isWritten

theorem leaves_eq {c : Concrete} (inner : c.children ≠ []) : c.leaves = leavesAll c.children := by
  obtain ⟨l, _ | ⟨d, ds⟩⟩ := c
  · exact absurd rfl inner
  · rfl

section Aligned

variable {source : Text}

mutual

theorem element?_tokens {c : Concrete}
    (aligned : ∀ l ∈ c.leaves.filter Label.isWritten, l.Aligned source) :
    ∃ found, element? (Encoded.ofText source) c = .ok found ∧
      (Element.tokensAll found.toList).Perm
        ((c.leaves.filter Label.isWritten).map (Label.token source)) := by
  obtain ⟨l, _ | ⟨d, ds⟩⟩ := c
  · rw [leaves] at aligned ⊢
    cases written : l.isWritten with
    | false =>
      refine ⟨none, ?_, ?_⟩
      · rw [element?, Encoded.token?_unwritten _ written]
        rfl
      · rw [List.filter_cons_of_neg (by simp [written])]
        exact List.Perm.nil
    | true =>
      have within : l.Aligned source := aligned l (by simp [written])
      refine ⟨some (.token (mk l []).slot (l.token source)), ?_, ?_⟩
      · rw [element?, Encoded.token?_aligned written within]
        rfl
      · rw [List.filter_cons_of_pos written]
        exact List.Perm.refl _
  · rw [leaves] at aligned ⊢
    obtain ⟨es, read, tokens⟩ := elements_tokens aligned
    refine ⟨some (.node (mk l (d :: ds)).slot l.kind (regroup es)), ?_, ?_⟩
    · rw [element?, read]
    · simp only [Option.toList_some, Element.tokensAll, Element.tokens, List.append_nil]
      exact (tokensAll_regroup_perm es).trans tokens

/-- Trees with aligned leaves become elements with the tokens of these leaves, in some order. -/
theorem elements_tokens {cs : List Concrete}
    (aligned : ∀ l ∈ (leavesAll cs).filter Label.isWritten, l.Aligned source) :
    ∃ es, elements (Encoded.ofText source) cs = .ok es ∧
      (Element.tokensAll es).Perm
        (((leavesAll cs).filter Label.isWritten).map (Label.token source)) := by
  cases cs with
  | nil => exact ⟨[], rfl, List.Perm.nil⟩
  | cons c cs =>
    rw [leavesAll, List.filter_append] at aligned ⊢
    obtain ⟨found, first, firstTokens⟩ :=
      element?_tokens fun l member => aligned l (List.mem_append_left _ member)
    obtain ⟨es, rest, restTokens⟩ :=
      elements_tokens fun l member => aligned l (List.mem_append_right _ member)
    refine ⟨found.toList ++ es, ?_, ?_⟩
    · rw [elements, first, rest]
    · rw [Element.tokensAll_append, List.map_append]
      exact firstTokens.append restTokens

end

end Aligned

/-- A tree with aligned leaves is read, and has the tokens of its leaves in some order. -/
theorem toNode_tokens {source : Text} {tree : Concrete} (inner : tree.children ≠ [])
    (aligned : ∀ l ∈ tree.writtenLeaves, l.Aligned source) :
    ∃ root, tree.toNode (Encoded.ofText source) = .ok root ∧
      root.tokens.Perm (tree.writtenLeaves.map (Label.token source)) := by
  rw [writtenLeaves, leaves_eq inner] at aligned ⊢
  obtain ⟨es, read, tokens⟩ := elements_tokens aligned
  refine ⟨⟨tree.label.kind, regroup es⟩, by rw [toNode, read], ?_⟩
  rw [Node.tokens_eq]
  exact (tokensAll_regroup_perm es).trans tokens

theorem toNode_ok {source : Text} (tree : Concrete)
    (aligned : ∀ l ∈ tree.writtenLeaves, l.Aligned source) :
    ∃ root, tree.toNode (Encoded.ofText source) = .ok root ∧
      ∀ t ∈ root.tokens, ∃ l ∈ tree.writtenLeaves, t = l.token source := by
  by_cases inner : tree.children = []
  · -- A leaf that is the whole tree becomes a node without children.
    refine ⟨⟨tree.label.kind, []⟩, by rw [toNode, inner]; rfl, fun t member => ?_⟩
    rw [Node.tokens_eq] at member
    cases member
  · obtain ⟨root, read, tokens⟩ := toNode_tokens inner aligned
    refine ⟨root, read, fun t member => ?_⟩
    obtain ⟨l, isLeaf, equal⟩ := List.mem_map.mp (tokens.mem_iff.mp member)
    exact ⟨l, isLeaf, equal.symm⟩

section Origin

variable {src : Encoded} {t : Token}

mutual

theorem exists_leaf_of_element? {c : Concrete} {e : Element} (read : element? src c = .ok (some e))
    (member : t ∈ e.tokens) : ∃ l ∈ c.leaves, src.token? l = .ok (some t) := by
  obtain ⟨l, _ | ⟨d, ds⟩⟩ := c
  · obtain ⟨t?, token, isToken⟩ := element?_leaf_ok read
    obtain ⟨u, rfl, rfl⟩ := Option.map_eq_some_iff.mp isToken.symm
    rw [Element.tokens, List.mem_singleton] at member
    subst member
    exact ⟨l, List.mem_singleton_self l, token⟩
  · obtain ⟨es, below, isNode⟩ := element?_node_ok read
    cases isNode
    rw [Element.tokens, mem_tokensAll_regroup] at member
    rw [leaves]
    exact exists_leaf_of_elements below member

/-- The tokens of trees that are read come from their leaves, wherever these start and end. -/
theorem exists_leaf_of_elements {cs : List Concrete} {es : List Element}
    (read : elements src cs = .ok es) (member : t ∈ Element.tokensAll es) :
    ∃ l ∈ leavesAll cs, src.token? l = .ok (some t) := by
  cases cs with
  | nil =>
    cases read
    cases member
  | cons c cs =>
    obtain ⟨found, others, first, rest, rfl⟩ := elements_cons_ok read
    rw [Element.tokensAll_append, List.mem_append] at member
    rw [leavesAll]
    rcases member with inFirst | inRest
    · obtain ⟨e, isFound, inE⟩ := Element.mem_tokensAll.mp inFirst
      rw [Option.mem_toList] at isFound
      subst isFound
      obtain ⟨l, isLeaf, token⟩ := exists_leaf_of_element? first inE
      exact ⟨l, List.mem_append_left _ isLeaf, token⟩
    · obtain ⟨l, isLeaf, token⟩ := exists_leaf_of_elements rest inRest
      exact ⟨l, List.mem_append_right _ isLeaf, token⟩

end

theorem exists_leaf_of_mem_tokens {tree : Concrete} {root : Node}
    (read : tree.toNode src = .ok root) (member : t ∈ root.tokens) :
    ∃ l ∈ tree.leaves, src.token? l = .ok (some t) := by
  obtain ⟨es, below, rfl⟩ := toNode_ok_iff.mp read
  rw [Node.tokens_eq, mem_tokensAll_regroup] at member
  obtain ⟨l, isLeaf, token⟩ := exists_leaf_of_elements below member
  have inner : tree.children ≠ [] := by
    intro none
    rw [none] at isLeaf
    cases isLeaf
  exact ⟨l, by rwa [leaves_eq inner], token⟩

/-- A tree without leaves before the source has no tokens before it. -/
theorem start_nonneg {tree : Concrete} {root : Node} (starts : ∀ l ∈ tree.leaves, 0 ≤ l.startByte)
    (read : tree.toNode src = .ok root) (member : t ∈ root.tokens) : 0 ≤ t.start := by
  obtain ⟨l, isLeaf, token⟩ := exists_leaf_of_mem_tokens read member
  unfold Encoded.token? at token
  split at token
  · cases first : src.charOffset l.startByte with
    | error e => rw [first] at token; cases token
    | ok start =>
      cases last : src.charOffset l.endByte with
      | error e => rw [first, last] at token; cases token
      | ok stop =>
        rw [first, last] at token
        cases token
        exact Encoded.charOffset_nonneg (starts l isLeaf) first
  · cases token

end Origin

end Concrete

/-- A source whose tree has leaves between its characters is parsed unless the grammar marked a
fault. Every token lies in the source, has the characters between its offsets, and leaves out its
end exactly if it is a single character. -/
theorem parse_tokens_faithful {source : Text} {tree : Concrete}
    (aligned : ∀ l ∈ tree.writtenLeaves, l.Aligned source) :
    (tree.label.hasError = false ↔ ∃ root, parse source tree = .ok root) ∧
    ∀ root, parse source tree = .ok root → ∀ t ∈ root.tokens, t.Faithful source := by
  obtain ⟨root, read, tokens⟩ := tree.toNode_ok aligned
  cases marked : tree.label.hasError with
  | true =>
    have refused := parse_refused source marked
    exact ⟨iff_of_false nofun fun ⟨root, parsed⟩ => refused root parsed,
      fun root parsed => absurd parsed (refused root)⟩
  | false =>
    rw [parse_accepted source marked, read]
    refine ⟨iff_of_true rfl ⟨root, rfl⟩, ?_⟩
    rintro _ ⟨⟩ t member
    obtain ⟨l, isLeaf, rfl⟩ := tokens t member
    exact Label.token_faithful (List.mem_filter.mp isLeaf).2 (aligned l isLeaf)

/-- A source with a character of each width. -/
def widthsSource : Text := ['a', 'é', '€', '😀']

/-- A tree of `widthsSource` with a leaf for the first two characters, one for each of the others,
and one that spans nothing. -/
def widthsTree : Concrete :=
  .mk { kind := "program", startByte := 0, endByte := 10 } [
    .mk { kind := "identifier", field := some "name", startByte := 0, endByte := 3 } [],
    .mk { kind := "block", startByte := 3, endByte := 10 } [
      .mk { kind := "currency", startByte := 3, endByte := 6 } [],
      .mk { kind := "picture", startByte := 6, endByte := 10 } [],
      .mk { kind := ";", startByte := 10, endByte := 10 } []]]

theorem parse_tokens_faithful_widths :
    (∀ l ∈ widthsTree.writtenLeaves, l.Aligned widthsSource) ∧
      widthsTree.writtenLeaves.length = 3 ∧
      ∃ root, parse widthsSource widthsTree = .ok root ∧
        ∀ t ∈ root.tokens, t.Faithful widthsSource := by
  have aligned : ∀ l ∈ widthsTree.writtenLeaves, l.Aligned widthsSource := by decide
  obtain ⟨accepted, faithful⟩ := parse_tokens_faithful aligned
  obtain ⟨root, parsed⟩ := accepted.mp rfl
  exact ⟨aligned, rfl, root, parsed, faithful root parsed⟩

end JavaSurvey
