import JavaSurvey.Proofs.Syntax.Slots

/-!
# Ranges of nodes

The range of a node reaches from the first to the last of its tokens. Slot order, dropped leaves and
ranges taken by minimum and maximum could all break the nesting of the tree; where the leaves are in
order, they do not.

1. `Concrete.leaves_apart`: of two trees, neither below the other, one has all its leaves before
   those of the other;
2. `Concrete.preorder_nests`: so among the nodes of a tree, in the order in which it is searched, a
   node has in its range, or outside of it, all of each later one;
3. `Concrete.LeavesInOrder.mem_preorder_of_start`: and what starts in the range of a node is below
   it.
-/

namespace JavaSurvey

namespace Concrete

/-! ## Leaves of two subtrees -/

theorem below?_append (c : Concrete) (p q : List Nat) :
    c.below? (p ++ q) = (c.below? p).bind fun d => d.below? q := by
  induction p generalizing c with
  | nil => rfl
  | cons i p ih =>
    rw [List.cons_append, below?, below?, Option.bind_assoc]
    congr 1
    funext d
    exact ih d

theorem append_sublist_leavesAll {cs : List Concrete} {i j : Nat} {d e : Concrete}
    (first : cs[i]? = some d) (second : cs[j]? = some e) (before : i < j) :
    (d.leaves ++ e.leaves).Sublist (leavesAll cs) := by
  induction cs generalizing i j with
  | nil => cases first
  | cons c cs ih =>
    rw [leavesAll]
    cases j with
    | zero => exact absurd before (Nat.not_lt_zero i)
    | succ j =>
      rw [List.getElem?_cons_succ] at second
      cases i with
      | zero =>
        cases first
        exact (leaves_sublist_leavesAll (List.mem_of_getElem? second)).append_left _
      | succ i =>
        have later := ih first second (Nat.lt_of_succ_lt_succ before)
        exact later.trans (List.sublist_append_right _ _)

theorem append_sublist_leaves {c d e : Concrete} {i j : Nat} {p q : List Nat}
    (atP : c.below? (i :: p) = some d) (atQ : c.below? (j :: q) = some e) (before : i < j) :
    (d.leaves ++ e.leaves).Sublist c.leaves := by
  obtain ⟨c₁, first, belowFirst⟩ := Option.bind_eq_some_iff.mp atP
  obtain ⟨c₂, second, belowSecond⟩ := Option.bind_eq_some_iff.mp atQ
  rw [leaves_eq (children_ne_nil_of_getElem? first)]
  exact ((leaves_sublist belowFirst).append (leaves_sublist belowSecond)).trans
    (append_sublist_leavesAll first second before)

/-- Two trees below a third, neither below the other, have their leaves one after the other. -/
theorem leaves_apart {c d e : Concrete} {p q : List Nat} (atP : c.below? p = some d)
    (atQ : c.below? q = some e) (notAbove : ¬ p <+: q) (notBelow : ¬ q <+: p) :
    (d.leaves ++ e.leaves).Sublist c.leaves ∨ (e.leaves ++ d.leaves).Sublist c.leaves := by
  induction p generalizing c q with
  | nil => exact absurd List.nil_prefix notAbove
  | cons i p ih =>
    cases q with
    | nil => exact absurd List.nil_prefix notBelow
    | cons j q =>
      -- The addresses part here, or in the child that they share.
      rcases Nat.lt_trichotomy i j with before | rfl | after
      · exact Or.inl (append_sublist_leaves atP atQ before)
      · obtain ⟨child, here, deeperP⟩ := Option.bind_eq_some_iff.mp atP
        obtain ⟨child', here', deeperQ⟩ := Option.bind_eq_some_iff.mp atQ
        cases here.symm.trans here'
        have atChild : c.below? [i] = some child := by rw [below?, here]; rfl
        have within := leaves_sublist atChild
        rcases ih deeperP deeperQ (fun above => notAbove (List.cons_prefix_cons.mpr ⟨rfl, above⟩))
          (fun above => notBelow (List.cons_prefix_cons.mpr ⟨rfl, above⟩)) with first | second
        · exact Or.inl (first.trans within)
        · exact Or.inr (second.trans within)
      · exact Or.inr (append_sublist_leaves atQ atP after)

/-! ## Tokens of two subtrees -/

section Tokens

variable {source : Text} {c d : Concrete} {n m : Node}

theorem ReadAs.mem_tokens (read : c.ReadAs source n) {t : Token} :
    t ∈ n.tokens ↔ ∃ l ∈ c.writtenLeaves, l.token source = t := by
  rw [← (sortByKey_perm Token.start n.tokens).mem_iff]
  have leaves : sortByKey Token.start n.tokens = c.writtenLeaves.map (Label.token source) :=
    read.leaves
  rw [leaves, List.mem_map]

theorem ReadAs.tokens_subset (outer : c.ReadAs source n) (inner : d.ReadAs source m) {p : List Nat}
    (found : c.below? p = some d) : ∀ t ∈ m.tokens, t ∈ n.tokens := by
  intro t member
  obtain ⟨l, isLeaf, rfl⟩ := inner.mem_tokens.mp member
  have fewer : d.writtenLeaves.Sublist c.writtenLeaves := (leaves_sublist found).filter _
  exact outer.mem_tokens.mpr ⟨l, fewer.subset isLeaf, rfl⟩

/-- Tokens of leaves that come one after the other. -/
theorem LeavesInOrder.last_lt_start {tree : Concrete} (inOrder : tree.LeavesInOrder source)
    (apart : (c.leaves ++ d.leaves).Sublist tree.leaves) {l k : Label} (first : l ∈ c.writtenLeaves)
    (second : k ∈ d.writtenLeaves) : (l.token source).last < (k.token source).start := by
  have written : (c.writtenLeaves ++ d.writtenLeaves).Sublist tree.writtenLeaves := by
    rw [writtenLeaves, writtenLeaves, ← List.filter_append]
    exact apart.filter _
  have isLeaf : l ∈ tree.writtenLeaves := written.subset (List.mem_append_left _ first)
  have ends := (List.pairwise_append.mp (inOrder.apart.sublist written)).2.2 l first k second
  exact token_last_lt (List.mem_filter.mp isLeaf).2 (inOrder.aligned l isLeaf) ends

end Tokens

end Concrete

/-! ## Ranges of two nodes -/

/-- The range of a node has all of another's range inside it, or outside of it. -/
def Node.Nests (n m : Node) : Prop :=
  ∀ a b c d, n.range? = some (a, b) → m.range? = some (c, d) →
    b ≤ c ∨ d ≤ a ∨ (a ≤ c ∧ d ≤ b)

theorem Node.range?_apart {n m : Node} (apart : ∀ t ∈ n.tokens, ∀ u ∈ m.tokens, t.last < u.start)
    {a b c d : Int} (first : n.range? = some (a, b)) (second : m.range? = some (c, d)) : b ≤ c := by
  obtain ⟨-, ⟨t, inFirst, rfl⟩, -⟩ := rangeOf?_bounds first
  obtain ⟨⟨u, inSecond, rfl⟩, -, -⟩ := rangeOf?_bounds second
  exact apart t inFirst u inSecond

namespace Concrete

/-- A tree that is a single leaf is read as a node without children. -/
theorem toNode_leaf {src : Encoded} {tree : Concrete} (leaf : tree.children = []) :
    tree.toNode src = .ok ⟨tree.label.kind, []⟩ := by
  rw [toNode, leaf]
  rfl

/-- A node nests each node that is not above it. -/
theorem LeavesInOrder.nests {source : Text} {tree c d : Concrete} {p q : List Nat} {n m : Node}
    (inOrder : tree.LeavesInOrder source) (atP : tree.below? p = some c)
    (atQ : tree.below? q = some d) (readC : c.ReadAs source n) (readD : d.ReadAs source m)
    (notAbove : ¬ q <+: p) : n.Nests m := by
  intro a b a' b' first second
  by_cases above : p <+: q
  · obtain ⟨r, rfl⟩ := above
    rw [below?_append, atP, Option.bind_some] at atQ
    exact Or.inr (Or.inr (Node.range?_nested (readC.tokens_subset readD atQ) first second))
  · rcases leaves_apart atP atQ above notAbove with before | after
    · refine Or.inl (Node.range?_apart (fun t inN u inM => ?_) first second)
      obtain ⟨l, isLeaf, rfl⟩ := readC.mem_tokens.mp inN
      obtain ⟨k, isLeafToo, rfl⟩ := readD.mem_tokens.mp inM
      exact inOrder.last_lt_start before isLeaf isLeafToo
    · refine Or.inr (Or.inl (Node.range?_apart (fun t inM u inN => ?_) second first))
      obtain ⟨l, isLeaf, rfl⟩ := readD.mem_tokens.mp inM
      obtain ⟨k, isLeafToo, rfl⟩ := readC.mem_tokens.mp inN
      exact inOrder.last_lt_start after isLeaf isLeafToo

/-- In the order in which a tree is searched, each node nests all later ones. -/
theorem preorder_nests {source : Text} {tree : Concrete} {root : Node}
    (inOrder : tree.LeavesInOrder source) (read : tree.toNode (Encoded.ofText source) = .ok root) :
    root.preorder.Pairwise Node.Nests := by
  by_cases inner : tree.children = []
  · rw [toNode_leaf inner] at read
    cases read
    exact List.pairwise_singleton _ _
  · obtain ⟨listing, lists, nodes⟩ := toNode_lists inner read
    rw [← nodes, List.pairwise_map]
    refine lists.outerFirst.imp_of_mem fun inListing inListingToo notAbove => ?_
    obtain ⟨c, atP, -, readC⟩ := lists.readAs inOrder inListing
    obtain ⟨d, atQ, -, readD⟩ := lists.readAs inOrder inListingToo
    exact inOrder.nests atP atQ readC readD notAbove

/-! ## Nodes below a range -/

theorem mem_preorder_of_below? {src : Encoded} {c d : Concrete} {n m : Node} {p : List Nat}
    (found : c.below? p = some d) (inner : d.children ≠ []) (readC : c.toNode src = .ok n)
    (readD : d.toNode src = .ok m) : m ∈ n.preorder := by
  obtain ⟨listing, lists, nodes⟩ := toNode_lists (children_ne_nil_of_below? found inner) readC
  obtain ⟨entry, listed, rfl⟩ := List.mem_map.mp ((lists.complete p).mpr ⟨d, found, inner⟩)
  obtain ⟨d', found', readD'⟩ := lists.reads entry listed
  cases found.symm.trans found'
  cases readD.symm.trans readD'
  rw [← nodes]
  exact List.mem_map_of_mem listed

theorem exists_of_mem_elements {src : Encoded} {cs : List Concrete} {es : List Element}
    (read : elements src cs = .ok es) {e : Element} (member : e ∈ es) :
    ∃ c ∈ cs, element? src c = .ok (some e) := by
  induction cs generalizing es with
  | nil =>
    cases read
    cases member
  | cons c cs ih =>
    obtain ⟨found, others, first, rest, rfl⟩ := elements_cons_ok read
    rcases List.mem_append.mp member with inFirst | inRest
    · cases found with
      | none => cases inFirst
      | some own =>
        cases List.mem_singleton.mp inFirst
        exact ⟨c, List.mem_cons_self, first⟩
    · obtain ⟨d, later, readLater⟩ := ih rest inRest
      exact ⟨d, List.mem_cons_of_mem _ later, readLater⟩

/-- A child that is a token comes from a leaf. -/
theorem exists_leaf_of_token {src : Encoded} {c : Concrete} {n : Node} {slot : String} {t : Token}
    (read : c.toNode src = .ok n) (child : Element.token slot t ∈ n.children) :
    ∃ leaf ∈ c.children, leaf.children = [] ∧ src.token? leaf.label = .ok (some t) := by
  obtain ⟨es, readChildren, rfl⟩ := toNode_ok_iff.mp read
  obtain ⟨leaf, isChild, readLeaf⟩ := exists_of_mem_elements readChildren (mem_regroup.mp child)
  obtain ⟨l, _ | ⟨d, ds⟩⟩ := leaf
  · obtain ⟨t?, token, isToken⟩ := element?_leaf_ok readLeaf
    obtain ⟨u, rfl, same⟩ := Option.map_eq_some_iff.mp isToken.symm
    cases same
    exact ⟨mk l [], isChild, rfl, token⟩
  · obtain ⟨below, -, isNode⟩ := element?_node_ok readLeaf
    cases isNode

/-- The token of a leaf is that of the characters which the leaf spans. -/
theorem LeavesInOrder.token_eq {source : Text} {leaf : Concrete} {t : Token}
    (inOrder : leaf.LeavesInOrder source) (isLeaf : leaf.children = [])
    (token : (Encoded.ofText source).token? leaf.label = .ok (some t)) :
    leaf.label ∈ leaf.writtenLeaves ∧ leaf.label.token source = t := by
  obtain ⟨l, children⟩ := leaf
  cases isLeaf
  rw [label] at token ⊢
  have written : l.isWritten = true := by
    cases isWritten : l.isWritten with
    | true => rfl
    | false =>
      rw [Encoded.token?_unwritten _ isWritten] at token
      cases token
  have member : l ∈ (Concrete.mk l []).writtenLeaves :=
    List.mem_filter.mpr ⟨List.mem_singleton.mpr rfl, written⟩
  refine ⟨member, ?_⟩
  rw [Encoded.token?_aligned written (inOrder.aligned l member)] at token
  exact Option.some.inj (Except.ok.inj token)

/-- A leaf that starts in the range of an inner node is below it. -/
theorem LeavesInOrder.above_of_start {source : Text} {tree leaf d : Concrete} {p q : List Nat}
    {m : Node} (inOrder : tree.LeavesInOrder source) (atP : tree.below? p = some leaf)
    (atQ : tree.below? q = some d) (isLeaf : leaf.children = []) (inner : d.children ≠ [])
    (written : leaf.label ∈ leaf.writtenLeaves) (readD : d.ReadAs source m) {a b : Int}
    (range : m.range? = some (a, b)) (after : a ≤ (leaf.label.token source).start)
    (before : (leaf.label.token source).start < b) : q <+: p := by
  by_contra notAbove
  have notBelow : ¬ p <+: q := by
    rintro ⟨r, rfl⟩
    rw [below?_append, atP, Option.bind_some] at atQ
    exact children_ne_nil_of_below? atQ inner isLeaf
  obtain ⟨⟨u, inTokens, rfl⟩, ⟨v, inTokensToo, rfl⟩, -⟩ := rangeOf?_bounds range
  obtain ⟨l, isFirst, rfl⟩ := readD.mem_tokens.mp inTokens
  obtain ⟨k, isFinal, rfl⟩ := readD.mem_tokens.mp inTokensToo
  have ordered := (Label.token_faithful (List.mem_filter.mp written).2
    ((inOrder.below atP).aligned _ written)).within.ordered
  -- The leaf is before all leaves of the node, or after all of them.
  rcases leaves_apart atP atQ notBelow notAbove with first | second
  · have apart := inOrder.last_lt_start first written isFirst
    omega
  · have apart := inOrder.last_lt_start second isFinal written
    omega

/-- A node with a token of its own that starts in the range of another node is that node or below
it. -/
theorem LeavesInOrder.mem_preorder_of_start {source : Text} {tree : Concrete} {root n m : Node}
    (inOrder : tree.LeavesInOrder source) (read : tree.toNode (Encoded.ofText source) = .ok root)
    (inN : n ∈ root.preorder) (inM : m ∈ root.preorder) {slot : String} {t : Token}
    (own : Element.token slot t ∈ n.children) {a b : Int} (range : m.range? = some (a, b))
    (after : a ≤ t.start) (before : t.start < b) : n ∈ m.preorder := by
  have inner : tree.children ≠ [] := by
    intro leaf
    rw [toNode_leaf leaf] at read
    cases read
    cases List.mem_singleton.mp inN
    cases own
  obtain ⟨listing, lists, nodes⟩ := toNode_lists inner read
  rw [← nodes] at inN inM
  obtain ⟨⟨p, n⟩, listedN, rfl⟩ := List.mem_map.mp inN
  obtain ⟨⟨q, m⟩, listedM, rfl⟩ := List.mem_map.mp inM
  obtain ⟨c, atP, innerC, readC⟩ := lists.readAs inOrder listedN
  obtain ⟨d, atQ, innerD, readD⟩ := lists.readAs inOrder listedM
  obtain ⟨leaf, isChild, isLeaf, token⟩ := exists_leaf_of_token readC.read own
  obtain ⟨i, atI⟩ := List.mem_iff_getElem?.mp isChild
  have atLeaf : tree.below? (p ++ [i]) = some leaf := by
    rw [below?_append, atP, Option.bind_some, below?, atI]
    rfl
  obtain ⟨written, rfl⟩ := (inOrder.below atLeaf).token_eq isLeaf token
  have above := inOrder.above_of_start atLeaf atQ isLeaf innerD written readD range after before
  -- The other node is no leaf, so it is above the parent of the leaf too.
  rcases List.prefix_concat_iff.mp above with rfl | ⟨r, rfl⟩
  · cases atQ.symm.trans atLeaf
    exact absurd isLeaf innerD
  · rw [below?_append, atQ, Option.bind_some] at atP
    exact mem_preorder_of_below? atP innerC readD.read readC.read

end Concrete

end JavaSurvey
