import JavaSurvey.Proofs.Order
import JavaSurvey.Proofs.Syntax.Tokens

/-!
# Trees regrouped by slot

Reading a tree brings the children of every node into slot order, so its tokens are no longer in the
order of the source. Nothing is lost by that.

1. `Concrete.toNode_sourceOrder`: where the leaves are in order and apart, sorting the tokens by
   their starts gives the leaves back, in the order of the document;
2. `Concrete.ListsAll.perm`: the nodes below some children can be listed by address in whatever
   order the children are brought, and still none comes before one above it;
3. `Concrete.element?_lists`: so by recursion on trees each inner node is listed once;
4. `readTree_keeps_tree`: both together, for the loop that reads a tree and for the search by name.
-/

namespace JavaSurvey

namespace Concrete

/-! ## Tokens in source order -/

/-- The leaves that span any byte lie between characters, one after the other. -/
structure LeavesInOrder (tree : Concrete) (source : Text) : Prop where
  aligned : ∀ l ∈ tree.writtenLeaves, l.Aligned source
  apart : tree.writtenLeaves.Pairwise fun l m => l.endByte ≤ m.startByte

theorem token_last_lt {source : Text} {l m : Label} (written : l.isWritten = true)
    (aligned : l.Aligned source) (apart : l.endByte ≤ m.startByte) :
    (l.token source).last < (m.token source).start := by
  have ordered : l.startByte < l.endByte := of_decide_eq_true written
  obtain ⟨front, middle, back, rfl, starts, ends, nonempty⟩ :=
    Text.exists_parts aligned.starts aligned.ends ordered
  have positive : 0 < middle.length := List.length_pos_iff.mpr nonempty
  have reached : Text.utf8Size (front ++ middle) ≤ m.startByte.toNat := by omega
  have later := Text.charOfByte_mono (front ++ middle ++ back) reached
  rw [Text.charOfByte_boundary, List.length_append] at later
  have start : (m.token (front ++ middle ++ back)).start =
      Text.charOfByte (front ++ middle ++ back) m.startByte.toNat := rfl
  rw [Label.token_parts starts ends, start, Token.last]
  dsimp only
  split <;> simp only [Option.getD_none, Option.getD_some] <;> omega

theorem token_start_lt {source : Text} {l m : Label} (written : l.isWritten = true)
    (aligned : l.Aligned source) (apart : l.endByte ≤ m.startByte) :
    (l.token source).start < (m.token source).start :=
  Int.lt_of_le_of_lt (Label.token_faithful written aligned).within.ordered
    (token_last_lt written aligned apart)

theorem toNode_sourceOrder {source : Text} {tree : Concrete} (inner : tree.children ≠ [])
    (inOrder : tree.LeavesInOrder source) :
    ∃ root, tree.toNode (Encoded.ofText source) = .ok root ∧
      sourceOrder root.tokens = tree.writtenLeaves.map (Label.token source) := by
  obtain ⟨root, read, tokens⟩ := toNode_tokens inner inOrder.aligned
  refine ⟨root, read, sortByKey_eq_of_perm tokens ?_⟩
  rw [List.pairwise_map]
  refine inOrder.apart.imp_of_mem fun isLeaf _ apart => ?_
  exact token_start_lt (List.mem_filter.mp isLeaf).2 (inOrder.aligned _ isLeaf) apart

/-! ## Addresses -/

/-- The tree at an address, which says at each node what place the next child has. -/
def below? (c : Concrete) : List Nat → Option Concrete
  | [] => some c
  | i :: rest => c.children[i]?.bind fun d => d.below? rest

theorem children_ne_nil_of_getElem? {c d : Concrete} {i : Nat} (child : c.children[i]? = some d) :
    c.children ≠ [] := by
  intro none
  rw [none] at child
  cases child

theorem children_ne_nil_of_below? {c d : Concrete} {p : List Nat} (found : c.below? p = some d)
    (inner : d.children ≠ []) : c.children ≠ [] := by
  cases p with
  | nil =>
    cases found
    exact inner
  | cons i rest =>
    obtain ⟨e, child, -⟩ := Option.bind_eq_some_iff.mp found
    exact children_ne_nil_of_getElem? child

theorem leaves_sublist_leavesAll {c : Concrete} {cs : List Concrete} (member : c ∈ cs) :
    c.leaves.Sublist (leavesAll cs) := by
  induction cs with
  | nil => cases member
  | cons d rest ih =>
    rw [leavesAll]
    rcases List.mem_cons.mp member with rfl | later
    · exact List.sublist_append_left _ _
    · exact (ih later).trans (List.sublist_append_right _ _)

theorem leaves_sublist {c d : Concrete} {p : List Nat} (found : c.below? p = some d) :
    d.leaves.Sublist c.leaves := by
  induction p generalizing c with
  | nil =>
    cases found
    exact List.Sublist.refl _
  | cons i rest ih =>
    obtain ⟨e, child, deeper⟩ := Option.bind_eq_some_iff.mp found
    rw [leaves_eq (children_ne_nil_of_getElem? child)]
    exact (ih deeper).trans (leaves_sublist_leavesAll (List.mem_of_getElem? child))

theorem LeavesInOrder.below {source : Text} {c d : Concrete} {p : List Nat}
    (inOrder : c.LeavesInOrder source) (found : c.below? p = some d) : d.LeavesInOrder source := by
  have fewer : d.writtenLeaves.Sublist c.writtenLeaves := (leaves_sublist found).filter _
  exact ⟨fun l member => inOrder.aligned l (fewer.subset member), inOrder.apart.sublist fewer⟩

/-! ## Listings -/

/-- A listing has every inner node of a tree by its address, with what it is read as, and none
before one above it. -/
structure Lists (src : Encoded) (tree : Concrete) (listing : List (List Nat × Node)) : Prop where
  complete : ∀ p, p ∈ listing.map Prod.fst ↔ ∃ c, tree.below? p = some c ∧ c.children ≠ []
  reads : ∀ entry ∈ listing, ∃ c, tree.below? entry.1 = some c ∧ c.toNode src = .ok entry.2
  outerFirst : listing.Pairwise fun a b => ¬ b.1 <+: a.1

/-- Blocks with the listings of some trees, one for each element that they become. Each block has
the place of its tree. -/
structure ListsAll (src : Encoded) (cs : List Concrete) (es : List Element)
    (blocks : List (Nat × List (List Nat × Node))) : Prop where
  nodes : List.Forall₂ (fun e block => block.2.map Prod.snd = e.nodes) es blocks
  lists : ∀ block ∈ blocks, ∃ c, cs[block.1]? = some c ∧ c.Lists src block.2
  complete : ∀ i c, cs[i]? = some c → c.children ≠ [] → i ∈ blocks.map Prod.fst
  distinct : (blocks.map Prod.fst).Nodup

section Lists

variable {src : Encoded} {cs : List Concrete} {es es' : List Element}
  {blocks : List (Nat × List (List Nat × Node))}

/-- The order of the elements does not matter to the blocks. -/
theorem ListsAll.perm (lists : ListsAll src cs es blocks) (perm : es'.Perm es) :
    ∃ blocks', ListsAll src cs es' blocks' := by
  obtain ⟨blocks', nodes, reordered⟩ := List.perm_comp_forall₂ perm lists.nodes
  have places := reordered.map Prod.fst
  refine ⟨blocks', nodes, fun block member => ?_, fun i c child inner => ?_, ?_⟩
  · exact lists.lists block (reordered.mem_iff.mp member)
  · exact places.mem_iff.mpr (lists.complete i c child inner)
  · exact places.nodup_iff.mpr lists.distinct

/-- A tree before the others moves each of them one place on. -/
theorem ListsAll.next (lists : ListsAll src cs es blocks) (c : Concrete) :
    let moved := blocks.map fun block => (block.1 + 1, block.2)
    List.Forall₂ (fun e block => block.2.map Prod.snd = e.nodes) es moved ∧
      (∀ block ∈ moved, block.1 ≠ 0 ∧ ∃ d, (c :: cs)[block.1]? = some d ∧ d.Lists src block.2) ∧
      (∀ i d, cs[i]? = some d → d.children ≠ [] → i + 1 ∈ moved.map Prod.fst) ∧
      (moved.map Prod.fst).Nodup := by
  refine ⟨List.forall₂_map_right_iff.mpr lists.nodes, fun block member => ?_,
    fun i d child inner => ?_, ?_⟩
  · obtain ⟨b, inBlocks, rfl⟩ := List.mem_map.mp member
    exact ⟨Nat.succ_ne_zero _, lists.lists b inBlocks⟩
  · obtain ⟨b, inBlocks, rfl⟩ := List.mem_map.mp (lists.complete i d child inner)
    rw [List.map_map]
    exact List.mem_map.mpr ⟨b, inBlocks, rfl⟩
  · have places : (blocks.map fun block => (block.1 + 1, block.2)).map Prod.fst =
        (blocks.map Prod.fst).map (· + 1) := by
      rw [List.map_map, List.map_map]
      rfl
    rw [places]
    exact lists.distinct.map (Nat.succ_injective)

theorem ListsAll.cons {c : Concrete} {found : Option Element} {listing : List (List Nat × Node)}
    (first : c.Lists src listing) (nodes : listing.map Prod.snd = Element.nodesAll found.toList)
    (others : ListsAll src cs es blocks) :
    ∃ blocks', ListsAll src (c :: cs) (found.toList ++ es) blocks' := by
  obtain ⟨movedNodes, movedLists, movedComplete, movedDistinct⟩ := others.next c
  cases found with
  | none =>
    -- Nothing is read of a leaf that spans no byte, and there is nothing below it.
    have leaf : c.children = [] := by
      by_contra inner
      have member := (first.complete []).mpr ⟨c, rfl, inner⟩
      rw [List.map_eq_nil_iff.mp nodes] at member
      cases member
    refine ⟨_, movedNodes, fun block member => (movedLists block member).2, ?_, movedDistinct⟩
    rintro (_ | i) d child inner
    · cases child
      exact absurd leaf inner
    · exact movedComplete i d child inner
  | some e =>
    have nodesOfFirst : listing.map Prod.snd = e.nodes := by
      rw [nodes, Option.toList_some, Element.nodesAll, Element.nodesAll, List.append_nil]
    refine ⟨(0, listing) :: _, .cons nodesOfFirst movedNodes, ?_, ?_, ?_⟩
    · intro block member
      rcases List.mem_cons.mp member with rfl | later
      · exact ⟨c, rfl, first⟩
      · exact (movedLists block later).2
    · rintro (_ | i) d child inner
      · exact List.mem_cons_self
      · exact List.mem_cons_of_mem _ (movedComplete i d child inner)
    · refine List.nodup_cons.mpr ⟨fun member => ?_, movedDistinct⟩
      obtain ⟨block, later, zero⟩ := List.mem_map.mp member
      exact (movedLists block later).1 zero

/-- Where an entry of a listing stands when its tree is a child. -/
def inChild (i : Nat) (entry : List Nat × Node) : List Nat × Node :=
  (i :: entry.1, entry.2)

/-- The listings of several children, one after the other. -/
def joined (blocks : List (Nat × List (List Nat × Node))) : List (List Nat × Node) :=
  blocks.flatMap fun block => block.2.map (inChild block.1)

theorem mem_joined {entry : List Nat × Node} :
    entry ∈ joined blocks ↔ ∃ block ∈ blocks, ∃ own ∈ block.2, inChild block.1 own = entry := by
  simp only [joined, List.mem_flatMap, List.mem_map]

/-- The blocks have the inner nodes below the children, by their addresses. -/
theorem ListsAll.mem_joined_iff {c : Concrete} (lists : ListsAll src c.children es blocks) (i : Nat)
    (p : List Nat) :
    i :: p ∈ (joined blocks).map Prod.fst ↔ ∃ e, c.below? (i :: p) = some e ∧ e.children ≠ [] := by
  constructor
  · intro member
    obtain ⟨entry, inJoined, equal⟩ := List.mem_map.mp member
    obtain ⟨block, inBlocks, own, inListing, rfl⟩ := mem_joined.mp inJoined
    obtain ⟨rfl, rfl⟩ := List.cons.inj equal
    obtain ⟨d, child, listsChild⟩ := lists.lists block inBlocks
    obtain ⟨e, found, inner⟩ := (listsChild.complete own.1).mp (List.mem_map_of_mem inListing)
    exact ⟨e, Option.bind_eq_some_iff.mpr ⟨d, child, found⟩, inner⟩
  · rintro ⟨e, found, inner⟩
    obtain ⟨d, child, deeper⟩ := Option.bind_eq_some_iff.mp found
    have innerChild := children_ne_nil_of_below? deeper inner
    obtain ⟨block, inBlocks, rfl⟩ := List.mem_map.mp (lists.complete i d child innerChild)
    obtain ⟨d', child', listsChild⟩ := lists.lists block inBlocks
    cases child.symm.trans child'
    obtain ⟨own, inListing, rfl⟩ := List.mem_map.mp ((listsChild.complete p).mpr ⟨e, deeper, inner⟩)
    exact List.mem_map.mpr ⟨_, mem_joined.mpr ⟨block, inBlocks, own, inListing, rfl⟩, rfl⟩

theorem ListsAll.joined_outerFirst (lists : ListsAll src cs es blocks) :
    (joined blocks).Pairwise fun a b => ¬ b.1 <+: a.1 := by
  refine List.pairwise_flatMap.mpr ⟨fun block inBlocks => ?_, ?_⟩
  · obtain ⟨d, -, listsChild⟩ := lists.lists block inBlocks
    rw [List.pairwise_map]
    exact listsChild.outerFirst.imp fun apart above => apart (List.cons_prefix_cons.mp above).2
  · -- Nodes below different children are not above each other.
    refine (List.pairwise_map.mp lists.distinct).imp fun different a inFirst b inSecond above => ?_
    obtain ⟨own, -, rfl⟩ := List.mem_map.mp inFirst
    obtain ⟨other, -, rfl⟩ := List.mem_map.mp inSecond
    exact different (List.cons_prefix_cons.mp above).1.symm

/-- A node and the blocks of its children list the whole tree. -/
theorem ListsAll.node {c : Concrete} {n : Node} (lists : ListsAll src c.children es blocks)
    (inner : c.children ≠ []) (read : c.toNode src = .ok n) :
    c.Lists src (([], n) :: joined blocks) := by
  refine ⟨?_, fun entry member => ?_, List.pairwise_cons.mpr ⟨?_, lists.joined_outerFirst⟩⟩
  · rintro (_ | ⟨i, p⟩)
    · exact iff_of_true List.mem_cons_self ⟨c, rfl, inner⟩
    · rw [List.map_cons, List.mem_cons, or_iff_right (List.cons_ne_nil i p)]
      exact lists.mem_joined_iff i p
  · rcases List.mem_cons.mp member with rfl | below
    · exact ⟨c, rfl, read⟩
    · obtain ⟨block, inBlocks, own, inListing, rfl⟩ := mem_joined.mp below
      obtain ⟨d, child, listsChild⟩ := lists.lists block inBlocks
      obtain ⟨e, found, readBelow⟩ := listsChild.reads own inListing
      exact ⟨e, Option.bind_eq_some_iff.mpr ⟨d, child, found⟩, readBelow⟩
  · intro entry below above
    obtain ⟨block, -, own, -, rfl⟩ := mem_joined.mp below
    cases List.prefix_nil.mp above

theorem ListsAll.nodesAll_eq (lists : ListsAll src cs es blocks) :
    (joined blocks).map Prod.snd = Element.nodesAll es := by
  have nodes := lists.nodes
  clear lists
  induction nodes with
  | nil => rfl
  | cons equal _ ih =>
    rw [joined, List.flatMap_cons, ← joined, List.map_append, ih, Element.nodesAll, ← equal,
      List.map_map]
    rfl

/-- However an inner node is regrouped, its tree is listed in the order in which it is searched. -/
theorem ListsAll.regrouped {c : Concrete} (lists : ListsAll src c.children es blocks)
    (inner : c.children ≠ []) (read : elements src c.children = .ok es) :
    ∃ listing, c.Lists src listing ∧
      listing.map Prod.snd = (⟨c.label.kind, regroup es⟩ : Node).preorder := by
  obtain ⟨blocks', regrouped⟩ := lists.perm (regroup_perm es)
  have whole : c.toNode src = .ok ⟨c.label.kind, regroup es⟩ := by rw [toNode, read]
  exact ⟨_, regrouped.node inner whole, by rw [List.map_cons, regrouped.nodesAll_eq, Node.preorder]⟩

theorem lists_leaf {c : Concrete} (leaf : c.children = []) : c.Lists src [] := by
  refine ⟨fun p => iff_of_false List.not_mem_nil ?_, nofun, List.Pairwise.nil⟩
  rintro ⟨d, found, inner⟩
  exact children_ne_nil_of_below? found inner leaf

end Lists

mutual

theorem element?_lists {src : Encoded} {c : Concrete} {found : Option Element}
    (read : element? src c = .ok found) :
    ∃ listing, c.Lists src listing ∧ listing.map Prod.snd = Element.nodesAll found.toList := by
  obtain ⟨l, _ | ⟨d, ds⟩⟩ := c
  · refine ⟨[], lists_leaf rfl, ?_⟩
    obtain ⟨t?, -, rfl⟩ := element?_leaf_ok read
    cases t? <;> rfl
  · obtain ⟨es, below, rfl⟩ := element?_node_ok read
    obtain ⟨blocks, lists⟩ := elements_lists below
    obtain ⟨listing, listsTree, nodes⟩ :=
      ListsAll.regrouped (c := mk l (d :: ds)) lists (List.cons_ne_nil d ds) below
    refine ⟨listing, listsTree, nodes.trans ?_⟩
    rw [Option.toList_some, Element.nodesAll, Element.nodesAll, List.append_nil, Element.nodes]
    rfl

theorem elements_lists {src : Encoded} {cs : List Concrete} {es : List Element}
    (read : elements src cs = .ok es) : ∃ blocks, ListsAll src cs es blocks := by
  cases cs with
  | nil =>
    cases read
    exact ⟨[], .nil, nofun, nofun, List.nodup_nil⟩
  | cons c cs =>
    obtain ⟨found, others, first, rest, rfl⟩ := elements_cons_ok read
    obtain ⟨listing, lists, nodes⟩ := element?_lists first
    obtain ⟨blocks, listsRest⟩ := elements_lists rest
    exact ListsAll.cons lists nodes listsRest

end

theorem toNode_lists {src : Encoded} {tree : Concrete} {root : Node} (inner : tree.children ≠ [])
    (read : tree.toNode src = .ok root) :
    ∃ listing, tree.Lists src listing ∧ listing.map Prod.snd = root.preorder := by
  obtain ⟨es, readChildren, rfl⟩ := toNode_ok_iff.mp read
  obtain ⟨blocks, lists⟩ := elements_lists readChildren
  exact lists.regrouped inner readChildren

/-! ## Searches by name -/

/-- A node is what a tree is read as, and has the leaves of the tree. -/
structure ReadAs (source : Text) (c : Concrete) (n : Node) : Prop where
  read : c.toNode (Encoded.ofText source) = .ok n
  leaves : sourceOrder n.tokens = c.writtenLeaves.map (Label.token source)

/-- The nodes found are those of a kind, by their addresses in the tree. -/
structure Finds (source : Text) (tree : Concrete) (kind : String) (order : List (List Nat))
    (found : List Node) : Prop where
  /-- No node is found twice. -/
  once : order.Nodup
  /-- The inner nodes of the kind are found, and no others. -/
  complete : ∀ p, p ∈ order ↔ ∃ c, tree.below? p = some c ∧ c.children ≠ [] ∧ c.label.kind = kind
  /-- Each is found as what it is read as. -/
  reads : List.Forall₂ (fun p n => ∃ c, tree.below? p = some c ∧ c.ReadAs source n) order found
  /-- No node is found before one above it. -/
  outerFirst : order.Pairwise fun p q => ¬ q <+: p

theorem name_of_toNode {src : Encoded} {c : Concrete} {n : Node} (read : c.toNode src = .ok n) :
    n.name = c.label.kind := by
  obtain ⟨es, -, rfl⟩ := toNode_ok_iff.mp read
  rfl

theorem Lists.readAs {source : Text} {tree : Concrete} {listing : List (List Nat × Node)}
    (lists : tree.Lists (Encoded.ofText source) listing) (inOrder : tree.LeavesInOrder source)
    {entry : List Nat × Node} (member : entry ∈ listing) :
    ∃ c, tree.below? entry.1 = some c ∧ c.children ≠ [] ∧ c.ReadAs source entry.2 := by
  obtain ⟨c, found, read⟩ := lists.reads entry member
  obtain ⟨c', found', inner⟩ := (lists.complete entry.1).mp (List.mem_map_of_mem member)
  cases found.symm.trans found'
  obtain ⟨n, readAgain, leaves⟩ := toNode_sourceOrder inner (inOrder.below found)
  cases read.symm.trans readAgain
  exact ⟨c, found, inner, read, leaves⟩

theorem Lists.finds {source : Text} {tree : Concrete} {listing : List (List Nat × Node)}
    (lists : tree.Lists (Encoded.ofText source) listing) (inOrder : tree.LeavesInOrder source)
    (kind : String) :
    tree.Finds source kind ((listing.filter (·.2.name = kind)).map Prod.fst)
      ((listing.map Prod.snd).filter (·.name = kind)) := by
  have outerFirst : ((listing.filter (·.2.name = kind)).map Prod.fst).Pairwise
      fun p q => ¬ q <+: p := List.pairwise_map.mpr (lists.outerFirst.filter _)
  refine ⟨outerFirst.imp ?_, fun p => ⟨?_, ?_⟩, ?_, outerFirst⟩
  · rintro p _ apart rfl
    exact apart List.prefix_rfl
  · intro member
    obtain ⟨entry, chosen, rfl⟩ := List.mem_map.mp member
    obtain ⟨listed, named⟩ := List.mem_filter.mp chosen
    obtain ⟨c, found, inner, readAs⟩ := lists.readAs inOrder listed
    exact ⟨c, found, inner, (name_of_toNode readAs.read).symm.trans (of_decide_eq_true named)⟩
  · rintro ⟨c, found, inner, named⟩
    obtain ⟨entry, listed, rfl⟩ := List.mem_map.mp ((lists.complete p).mpr ⟨c, found, inner⟩)
    obtain ⟨c', found', read⟩ := lists.reads entry listed
    cases found.symm.trans found'
    have chosen : entry.2.name = kind := (name_of_toNode read).trans named
    exact List.mem_map_of_mem (List.mem_filter.mpr ⟨listed, decide_eq_true chosen⟩)
  · rw [List.filter_map, List.forall₂_map_left_iff, List.forall₂_map_right_iff]
    refine List.forall₂_same.mpr fun entry chosen => ?_
    obtain ⟨c, found, -, readAs⟩ := lists.readAs inOrder (List.mem_filter.mp chosen).1
    exact ⟨c, found, readAs⟩

end Concrete

/-- Reading a tree whose leaves are in order loses nothing. Sorted by their starts, the tokens are
those of the leaves that span any byte, in the order of the document. The nodes found by a name are
the inner nodes of that kind, one for one, none before one above it. -/
theorem readTree_keeps_tree {source : Text} {tree : Concrete} (inner : tree.children ≠ [])
    (inOrder : tree.LeavesInOrder source) :
    ∃ root, readTree (Encoded.ofText source) tree = .ok root ∧
      sourceOrder root.tokens = tree.writtenLeaves.map (Label.token source) ∧
      ∀ kind, ∃ order, tree.Finds source kind order (root.findAll kind) := by
  obtain ⟨root, read, leaves⟩ := Concrete.toNode_sourceOrder inner inOrder
  refine ⟨root, (readTree_eq_toNode _ tree).trans read, leaves, fun kind => ?_⟩
  obtain ⟨listing, lists, nodes⟩ := Concrete.toNode_lists inner read
  rw [Node.findAll_eq, ← nodes]
  exact ⟨_, lists.finds inOrder kind⟩

/-- A source in which a list is interrupted by a mark. -/
def listSource : Text := "é,ü".toList

/-- A tree of `listSource` whose two names share a slot, so that the comma comes after both when it
is read, with an empty list of arguments between two blocks of one kind. -/
def listTree : Concrete :=
  .mk { kind := "block", startByte := 0, endByte := 5 } [
    .mk { kind := "identifier", field := some "name", startByte := 0, endByte := 2 } [],
    .mk { kind := "block", startByte := 2, endByte := 3 } [
      .mk { kind := ",", startByte := 2, endByte := 3 } []],
    .mk { kind := "arguments", startByte := 3, endByte := 3 } [
      .mk { kind := "(", startByte := 3, endByte := 3 } []],
    .mk { kind := "block", field := some "name", startByte := 3, endByte := 5 } [
      .mk { kind := "identifier", startByte := 3, endByte := 5 } []]]

theorem readTree_keeps_listTree :
    listTree.children ≠ [] ∧ listTree.LeavesInOrder listSource ∧
      ∃ root, readTree (Encoded.ofText listSource) listTree = .ok root ∧
        sourceOrder root.tokens = listTree.writtenLeaves.map (Label.token listSource) ∧
        ∀ kind, ∃ order, listTree.Finds listSource kind order (root.findAll kind) := by
  have inner : listTree.children ≠ [] := List.cons_ne_nil _ _
  have inOrder : listTree.LeavesInOrder listSource := ⟨by decide, by decide⟩
  exact ⟨inner, inOrder, readTree_keeps_tree inner inOrder⟩

end JavaSurvey
