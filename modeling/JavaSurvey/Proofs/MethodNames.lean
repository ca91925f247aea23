import JavaSurvey.Proofs.Declarations
import JavaSurvey.Proofs.Services

/-!
# The names of methods

A method is named after the first token of its name slot and its parameters that has the shape of an
identifier. That shape starts with an ASCII letter, an underscore or a dollar sign. Other letters
may start a name too, and then the search goes on into the parameters.

1. `declarator_eq_ok`: the token after which a method is named;
2. `nameFirst_of_inOrder`: where the leaves are in order, a name starts before the parameters if it
   comes before them in the tree;
3. `methodDecl_ownName_iff`: the methods that are reported under their own names;
4. `foreignMethod_named`: one that is reported under the type of its parameter.
-/

namespace JavaSurvey

/-- The token has the shape of an identifier. -/
def Token.IsShaped (t : Token) : Prop :=
  isIdentifier t.image.toList = true

namespace Node

/-- The token after which a method with these parameters is named. -/
structure NamedAfter (method parameters : Node) (t : Token) : Prop where
  listed : (method.inSlot "parameters").findSome? Element.node? = some parameters
  found : t ∈ method.slotTokens "name" ++ parameters.tokens
  shaped : t.IsShaped
  first : ∀ u ∈ method.slotTokens "name" ++ parameters.tokens, u.IsShaped → t.start ≤ u.start
  /-- Among tokens that start together, those of the name slot come first. -/
  own : t ∈ method.slotTokens "name" ↔
    ∃ s ∈ method.slotTokens "name", s.IsShaped ∧
      ∀ u ∈ parameters.tokens, u.IsShaped → s.start ≤ u.start

end Node

/-- The first token in the order of the source that passes a test. It is one of the `own` tokens if
one of those that pass starts no later than the others that do. -/
theorem find?_sourceOrder {p : Token → Bool} {own others : List Token} {t : Token}
    (found : (sourceOrder (own ++ others)).find? p = some t) :
    t ∈ own ++ others ∧ p t = true ∧ (∀ u ∈ own ++ others, p u = true → t.start ≤ u.start) ∧
      (t ∈ own ↔ ∃ s ∈ own, p s = true ∧ ∀ u ∈ others, p u = true → s.start ≤ u.start) := by
  rw [← List.head?_filter, sourceOrder, filter_sortByKey] at found
  obtain ⟨member, least⟩ := head?_sourceOrder found
  obtain ⟨inEither, passes⟩ := List.mem_filter.mp member
  have first : ∀ u ∈ own ++ others, p u = true → t.start ≤ u.start :=
    fun u listed passes => least u (List.mem_filter.mpr ⟨listed, passes⟩)
  refine ⟨inEither, passes, first, ?_, ?_⟩
  · intro isOwn
    exact ⟨t, isOwn, passes, fun u isOther => first u (List.mem_append_right _ isOther)⟩
  · -- Sorting keeps the order of tokens that start together, so the own ones come first.
    rintro ⟨s, isOwn, passes, before⟩
    have ownPasses : s ∈ own.filter p := List.mem_filter.mpr ⟨isOwn, passes⟩
    have othersLater : ∀ u ∈ others.filter p, s.start ≤ u.start := fun u member =>
      before u (List.mem_filter.mp member).1 (List.mem_filter.mp member).2
    rw [List.filter_append, head?_sortByKey_append ownPasses othersLater] at found
    exact (List.mem_filter.mp (head?_sourceOrder found).1).1

theorem declarator_eq_ok {method parameters : Node} {t : Token}
    (made : declarator method = .ok (t, parameters)) : method.NamedAfter parameters t := by
  unfold declarator at made
  dsimp only at made
  split at made
  · cases made
  · split at made
    · cases made
    · next parameters' listed =>
      split at made
      · next name found =>
        cases made
        obtain ⟨member, shaped, first, own⟩ := find?_sourceOrder found
        exact ⟨listed, member, shaped, first, own⟩
      · cases made

theorem MethodDecl.summary_of_check {summary : MethodSummary} {signature : String}
    {start stop : Int} {bodyStart bodyStop : Option Int} {m : MethodDecl}
    (made : check summary signature start stop bodyStart bodyStop = .ok m) :
    m.toMethodSummary = summary := by
  unfold check at made
  split at made
  · dsimp only at made
    split at made
    · cases made
      rfl
    · split at made
      · cases made
        rfl
      · cases made
    · cases made
  · cases made

theorem methodDecl?_named {source : Text} {lines : LineIndex} {method : Node} {m : MethodDecl}
    (declared : methodDecl? source lines method = .ok (some m)) :
    ∃ parameters t, method.NamedAfter parameters t ∧ m.name = t.image ∧
      m.line = lines.lineOf t.start := by
  unfold methodDecl? at declared
  split at declared
  · next name parameters start stop made range =>
    obtain ⟨checked, accepted, same⟩ := exists_of_map_eq_ok declared
    cases same
    refine ⟨parameters, name, declarator_eq_ok made, ?_, ?_⟩
    · rw [MethodDecl.summary_of_check accepted]
    · rw [MethodDecl.summary_of_check accepted]
  · cases declared

namespace Node

/-- A method is reported under the text of a token of its name slot, at the line of that token. -/
def ReportedAsNamed (method : Node) (lines : LineIndex) (m : MethodDecl) : Prop :=
  ∃ s ∈ method.slotTokens "name", m.name = s.image ∧ m.line = lines.lineOf s.start

/-- The name of a method stands before its parameters. -/
def NameFirst (method parameters : Node) : Prop :=
  ∀ s ∈ method.slotTokens "name", ∀ u ∈ parameters.tokens, s.start ≤ u.start

end Node

/-! ## Names before parameters -/

namespace Concrete

/-- In each method of a tree, what is in the name slot comes before the parameters. -/
def NamesFirst (tree : Concrete) : Prop :=
  ∀ c ∈ tree.preorder, c.label.kind = "method_declaration" →
    c.children.Pairwise fun d e => ¬ (d.slot = "parameters" ∧ e.slot = "name")

theorem mem_preorderAll {cs : List Concrete} {c d : Concrete} (member : d ∈ cs)
    (below : c ∈ d.preorder) : c ∈ preorderAll cs := by
  induction cs with
  | nil => cases member
  | cons first rest ih =>
    rw [preorderAll]
    rcases List.mem_cons.mp member with rfl | later
    · exact List.mem_append_left _ below
    · exact List.mem_append_right _ (ih later)

theorem mem_preorder_of_address {tree c : Concrete} {p : List Nat}
    (found : tree.below? p = some c) : c ∈ tree.preorder := by
  induction p generalizing tree with
  | nil =>
    cases found
    rw [preorder_eq]
    exact List.mem_cons_self
  | cons i p ih =>
    obtain ⟨d, child, deeper⟩ := Option.bind_eq_some_iff.mp found
    rw [preorder_eq]
    exact List.mem_cons_of_mem _ (mem_preorderAll (List.mem_of_getElem? child) (ih deeper))

theorem slot_of_element? {src : Encoded} {d : Concrete} {e : Element}
    (read : element? src d = .ok (some e)) : e.slot = d.slot := by
  obtain ⟨l, _ | ⟨first, rest⟩⟩ := d
  · obtain ⟨t?, -, isToken⟩ := element?_leaf_ok read
    obtain ⟨t, -, rfl⟩ := Option.map_eq_some_iff.mp isToken.symm
    rfl
  · obtain ⟨below, -, isNode⟩ := element?_node_ok read
    cases isNode
    rfl

/-- The tokens of a child come from the leaves of a tree in the same slot. -/
theorem exists_leaf_of_child {source : Text} {c : Concrete} {n : Node} {e : Element} {t : Token}
    (inOrder : c.LeavesInOrder source) (read : c.toNode (Encoded.ofText source) = .ok n)
    (child : e ∈ n.children) (member : t ∈ e.tokens) :
    ∃ (i : Nat) (d : Concrete), c.children[i]? = some d ∧ d.slot = e.slot ∧
      ∃ l ∈ d.writtenLeaves, l.token source = t := by
  obtain ⟨es, readChildren, rfl⟩ := toNode_ok_iff.mp read
  obtain ⟨d, isChild, readChild⟩ := exists_of_mem_elements readChildren (mem_regroup.mp child)
  obtain ⟨i, atI⟩ := List.mem_iff_getElem?.mp isChild
  have atD : c.below? [i] = some d := by
    rw [below?, atI]
    rfl
  obtain ⟨found, readAgain, tokens⟩ := element?_tokens (inOrder.below atD).aligned
  cases readChild.symm.trans readAgain
  refine ⟨i, d, atI, (slot_of_element? readChild).symm, List.mem_map.mp ?_⟩
  exact tokens.mem_iff.mp (Element.mem_tokensAll.mpr ⟨e, List.mem_singleton_self e, member⟩)

/-- Where the name comes before the parameters in the tree of a method, it starts before them. -/
theorem LeavesInOrder.nameFirst {source : Text} {c : Concrete} {method parameters : Node}
    (inOrder : c.LeavesInOrder source) (read : c.toNode (Encoded.ofText source) = .ok method)
    (order : c.children.Pairwise fun d e => ¬ (d.slot = "parameters" ∧ e.slot = "name"))
    (listed : (method.inSlot "parameters").findSome? Element.node? = some parameters) :
    method.NameFirst parameters := by
  intro s own u member
  rw [Node.slotTokens, tokensOf_eq] at own
  obtain ⟨e, inName, ofE⟩ := Element.mem_tokensAll.mp own
  obtain ⟨f, inParameters, isNode⟩ := List.exists_of_findSome?_eq_some listed
  have ofF : u ∈ f.tokens := by
    cases f with
    | token slot t => cases isNode
    | node slot name children =>
      cases isNode
      rwa [Node.tokens_eq] at member
  obtain ⟨isChildE, slotE⟩ := List.mem_filter.mp inName
  obtain ⟨isChildF, slotF⟩ := List.mem_filter.mp inParameters
  obtain ⟨i, d, atI, slotD, l, isLeaf, rfl⟩ := exists_leaf_of_child inOrder read isChildE ofE
  obtain ⟨j, d', atJ, slotD', k, isLeafToo, rfl⟩ := exists_leaf_of_child inOrder read isChildF ofF
  rw [eq_of_beq slotE] at slotD
  rw [eq_of_beq slotF] at slotD'
  have before : i < j := by
    obtain ⟨boundI, rfl⟩ := List.getElem?_eq_some_iff.mp atI
    obtain ⟨boundJ, rfl⟩ := List.getElem?_eq_some_iff.mp atJ
    rcases Nat.lt_trichotomy i j with less | rfl | more
    · exact less
    · exact absurd (slotD.symm.trans slotD') (by decide)
    · exact absurd ⟨slotD', slotD⟩ (List.pairwise_iff_getElem.mp order j i boundJ boundI more)
  have leaves : (d.leaves ++ d'.leaves).Sublist c.leaves := by
    rw [leaves_eq (children_ne_nil_of_getElem? atI)]
    exact append_sublist_leavesAll atI atJ before
  have apart := inOrder.last_lt_start leaves isLeaf isLeafToo
  have aligned : l.Aligned source := by
    refine inOrder.aligned l (List.mem_filter.mpr ⟨?_, (List.mem_filter.mp isLeaf).2⟩)
    exact leaves.subset (List.mem_append_left _ (List.mem_filter.mp isLeaf).1)
  have ordered := (Label.token_faithful (List.mem_filter.mp isLeaf).2 aligned).within.ordered
  exact Int.le_of_lt (Int.lt_of_le_of_lt ordered apart)

end Concrete

theorem nameFirst_of_inOrder {source : Text} {tree : Concrete} {root method parameters : Node}
    (inOrder : tree.LeavesInOrder source) (namesFirst : tree.NamesFirst)
    (parsed : parse source tree = .ok root) (found : method ∈ root.findAll "method_declaration")
    (listed : (method.inSlot "parameters").findSome? Element.node? = some parameters) :
    method.NameFirst parameters := by
  have read := toNode_of_parse parsed
  rw [Node.findAll_eq] at found
  obtain ⟨inRoot, kind⟩ := List.mem_filter.mp found
  have inner : tree.children ≠ [] := by
    intro leaf
    rw [Concrete.toNode_leaf leaf] at read
    cases read
    cases List.mem_singleton.mp inRoot
    cases listed
  obtain ⟨listing, lists, nodes⟩ := Concrete.toNode_lists inner read
  rw [← nodes] at inRoot
  obtain ⟨⟨p, n⟩, isListed, rfl⟩ := List.mem_map.mp inRoot
  obtain ⟨c, atP, -, readC⟩ := lists.readAs inOrder isListed
  have isMethod := (Concrete.name_of_toNode readC.read).symm.trans (of_decide_eq_true kind)
  exact (inOrder.below atP).nameFirst readC.read
    (namesFirst c (Concrete.mem_preorder_of_address atP) isMethod) listed

/-- A method is named after the first shaped token of its name slot and its parameters. In a tree
whose leaves are in order and that has names before parameters, the method is reported under its own
name exactly if a token of the name slot is shaped. If none is, then in every tree the method is
named after a token of its parameters, and no token of the name slot reads like that. -/
theorem methodDecl_ownName_iff {source : Text} {tree : Concrete} {root method : Node}
    {lines : LineIndex} {m : MethodDecl} (parsed : parse source tree = .ok root)
    (found : method ∈ root.findAll "method_declaration")
    (declared : methodDecl? source lines method = .ok (some m)) :
    ∃ parameters t, method.NamedAfter parameters t ∧ m.name = t.image ∧
      m.line = lines.lineOf t.start ∧
      (tree.LeavesInOrder source → tree.NamesFirst →
        (method.ReportedAsNamed lines m ↔ ∃ s ∈ method.slotTokens "name", s.IsShaped)) ∧
      ((∀ s ∈ method.slotTokens "name", ¬ s.IsShaped) →
        t ∈ parameters.tokens ∧ ∀ s ∈ method.slotTokens "name", m.name ≠ s.image) := by
  obtain ⟨parameters, t, named, name, line⟩ := methodDecl?_named declared
  have shaped {s : Token} (same : m.name = s.image) : s.IsShaped := by
    rw [Token.IsShaped, ← same, name]
    exact named.shaped
  refine ⟨parameters, t, named, name, line, fun inOrder namesFirst => ⟨?_, ?_⟩,
    fun unshaped => ⟨?_, ?_⟩⟩
  · rintro ⟨s, own, same, -⟩
    exact ⟨s, own, shaped same⟩
  · rintro ⟨s, own, isShaped⟩
    have nameFirst := nameFirst_of_inOrder inOrder namesFirst parsed found named.listed
    have isOwn := named.own.mpr ⟨s, own, isShaped, fun u listed _ => nameFirst s own u listed⟩
    exact ⟨t, isOwn, name, line⟩
  · exact (List.mem_append.mp named.found).resolve_left fun own => unshaped t own named.shaped
  · intro s own same
    exact unshaped s own (shaped same)

/-! ## Two methods -/

/-- A class with a method of one parameter, named by a text. -/
def methodSource (name : String) : Text :=
  "class A \x7b void ".toList ++ name.toList ++ "(int x) \x7b \x7d \x7d".toList

/-- The tree of `methodSource`, for a name of `size` bytes. -/
def methodTree (size : Int) : Concrete :=
  let stop := 15 + size
  .mk { kind := "program", startByte := 0, endByte := stop + 13 } [
    plainClass 0 (stop + 13) [
      .mk { kind := "method_declaration", startByte := 10, endByte := stop + 11 } [
        .leaf "void_type" (some "type") 10 14,
        .leaf "identifier" (some "name") 15 stop,
        .mk { kind := "formal_parameters", field := some "parameters", startByte := stop,
              endByte := stop + 7 } [
          .leaf "(" none stop (stop + 1),
          .mk { kind := "formal_parameter", startByte := stop + 1, endByte := stop + 6 } [
            .mk { kind := "integral_type", field := some "type", startByte := stop + 1,
                  endByte := stop + 4 } [.leaf "int" none (stop + 1) (stop + 4)],
            .leaf "identifier" (some "name") (stop + 5) (stop + 6)],
          .leaf ")" none (stop + 6) (stop + 7)],
        .mk { kind := "block", field := some "body", startByte := stop + 8, endByte := stop + 11 }
          [.leaf "\x7b" none (stop + 8) (stop + 9), .leaf "\x7d" none (stop + 10) (stop + 11)]]]]

/-- What a method is declared as in a source. -/
abbrev declaredName? (source : Text) (method : Node) : Option String :=
  (declarationOf? source (LineIndex.ofText source) method).map (·.name)

theorem exists_declared {source : Text} {tree : Concrete} {own : List String} {reported : String}
    (facts : (parse source tree).map (fun root => (root.findAll "method_declaration").map
      fun method => (method.slotImages "name", declaredName? source method)) =
        .ok [(own, some reported)]) :
    ∃ root method m, parse source tree = .ok root ∧ root.findAll "method_declaration" = [method] ∧
      methodDecl? source (LineIndex.ofText source) method = .ok (some m) ∧
      method.slotImages "name" = own ∧ m.name = reported := by
  obtain ⟨root, parsed, listed⟩ := exists_of_map_eq_ok facts
  obtain ⟨method, methods, found⟩ := List.map_eq_singleton_iff.mp listed
  obtain ⟨images, declared⟩ := Prod.mk.inj found
  obtain ⟨m, made, name⟩ := Option.map_eq_some_iff.mp declared
  exact ⟨root, method, m, parsed, methods, declarationOf?_eq_some.mp made, images, name⟩

theorem methodTree_accented :
    (methodTree 3).LeavesInOrder (methodSource "fé") ∧ (methodTree 3).NamesFirst :=
  ⟨⟨by decide +kernel, by decide +kernel⟩, by unfold Concrete.NamesFirst; decide +kernel⟩

/-- A name that only goes on with a letter outside ASCII is the one that is reported. -/
theorem methodDecl_ownName_iff_accented :
    (methodTree 3).LeavesInOrder (methodSource "fé") ∧ (methodTree 3).NamesFirst ∧
    ∃ root method m, parse (methodSource "fé") (methodTree 3) = .ok root ∧
      root.findAll "method_declaration" = [method] ∧
      methodDecl? (methodSource "fé") (LineIndex.ofText (methodSource "fé")) method = .ok (some m) ∧
      m.name = "fé" ∧ method.ReportedAsNamed (LineIndex.ofText (methodSource "fé")) m := by
  obtain ⟨inOrder, namesFirst⟩ := methodTree_accented
  have facts : (parse (methodSource "fé") (methodTree 3)).map (fun root =>
      (root.findAll "method_declaration").map fun method =>
        (method.slotImages "name", declaredName? (methodSource "fé") method)) =
      .ok [(["fé"], some "fé")] := by
    decide +kernel
  obtain ⟨root, method, m, parsed, methods, declared, images, name⟩ := exists_declared facts
  have found : method ∈ root.findAll "method_declaration" := by
    rw [methods]
    exact List.mem_singleton_self method
  obtain ⟨_, _, -, -, -, ownName, -⟩ := methodDecl_ownName_iff parsed found declared
  have isImage : "fé" ∈ method.slotImages "name" := by
    rw [images]
    exact List.mem_singleton_self "fé"
  obtain ⟨s, own, image⟩ := List.mem_map.mp isImage
  have shaped : s.IsShaped := by
    rw [Token.IsShaped, image]
    decide +kernel
  exact ⟨inOrder, namesFirst, root, method, m, parsed, methods, declared, name,
    (ownName inOrder namesFirst).mpr ⟨s, own, shaped⟩⟩

/-- A method whose name starts with a letter outside ASCII is reported under the type of its
parameter. -/
theorem foreignMethod_named :
    ∃ root method m, parse (methodSource "é") (methodTree 2) = .ok root ∧
      root.findAll "method_declaration" = [method] ∧
      methodDecl? (methodSource "é") (LineIndex.ofText (methodSource "é")) method = .ok (some m) ∧
      m.name = "int" ∧ ¬ method.ReportedAsNamed (LineIndex.ofText (methodSource "é")) m := by
  have facts : (parse (methodSource "é") (methodTree 2)).map (fun root =>
      (root.findAll "method_declaration").map fun method =>
        (method.slotImages "name", declaredName? (methodSource "é") method)) =
      .ok [(["é"], some "int")] := by
    decide +kernel
  obtain ⟨root, method, m, parsed, methods, declared, images, name⟩ := exists_declared facts
  refine ⟨root, method, m, parsed, methods, declared, name, ?_⟩
  rintro ⟨s, own, same, -⟩
  have image : s.image ∈ method.slotImages "name" := List.mem_map_of_mem own
  rw [images, ← same, name] at image
  exact absurd image (by decide)

end JavaSurvey
