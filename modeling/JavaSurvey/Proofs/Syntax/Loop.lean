import JavaSurvey.Proofs.Syntax.Drafts
import JavaSurvey.Syntax.Reading

/-!
# The loop and the recursion

A tree is read by a loop that moves a cursor and keeps a stack with the tables of the open nodes.
The same tree comes about by recursion: the elements that the children become, slot by slot.

1. `Concrete.elements`: what trees become, by recursion;
2. `advance_some` and `advance_none`: the stack stays in step with the nodes around the cursor, also
   where several of them end at once;
3. `readNodes_eq_place`: so each node is added to the table of its parent, and the nodes after it to
   the tables that were open before;
4. `Concrete.placeAll_adds`: by recursion, a table gets the elements that the trees become;
5. `readTree_eq_toNode`: the loop reads the tree that the recursion makes.
-/

namespace JavaSurvey

/-! ## The recursion -/

namespace Concrete

mutual

/-- The element that a tree becomes in its parent, if any. -/
def element? (src : Encoded) : Concrete → Except Failure (Option Element)
  | mk l [] =>
      match src.token? l with
      | .error e => .error e
      | .ok found => .ok (found.map (Element.token (mk l []).slot))
  | mk l (c :: cs) =>
      match elements src (c :: cs) with
      | .error e => .error e
      | .ok children => .ok (some (.node (mk l (c :: cs)).slot l.kind (regroup children)))

/-- The elements that trees become, in order. -/
def elements (src : Encoded) : List Concrete → Except Failure (List Element)
  | [] => .ok []
  | c :: rest =>
      match element? src c, elements src rest with
      | .ok found, .ok others => .ok (found.toList ++ others)
      | .error e, _ => .error e
      | _, .error e => .error e

end

variable {src : Encoded}

theorem element?_leaf_ok {l : Label} {found : Option Element}
    (read : element? src (mk l []) = .ok found) :
    ∃ t?, src.token? l = .ok t? ∧ found = t?.map (Element.token (mk l []).slot) := by
  rw [element?] at read
  cases token : src.token? l with
  | error e => rw [token] at read; cases read
  | ok t? =>
    rw [token] at read
    exact ⟨t?, rfl, (Except.ok.inj read).symm⟩

theorem element?_node_ok {l : Label} {c : Concrete} {cs : List Concrete} {found : Option Element}
    (read : element? src (mk l (c :: cs)) = .ok found) :
    ∃ es, elements src (c :: cs) = .ok es ∧
      found = some (.node (mk l (c :: cs)).slot l.kind (regroup es)) := by
  rw [element?] at read
  cases below : elements src (c :: cs) with
  | error e => rw [below] at read; cases read
  | ok es =>
    rw [below] at read
    exact ⟨es, rfl, (Except.ok.inj read).symm⟩

theorem elements_cons_ok {c : Concrete} {rest : List Concrete} {es : List Element}
    (read : elements src (c :: rest) = .ok es) :
    ∃ found others, element? src c = .ok found ∧ elements src rest = .ok others ∧
      es = found.toList ++ others := by
  rw [elements] at read
  cases first : element? src c with
  | error e => rw [first] at read; cases read
  | ok found =>
    cases second : elements src rest with
    | error e => rw [first, second] at read; cases read
    | ok others =>
      rw [first, second] at read
      exact ⟨found, others, rfl, rfl, (Except.ok.inj read).symm⟩

/-- The syntax tree of a concrete tree. -/
def toNode (src : Encoded) (root : Concrete) : Except Failure Node :=
  match elements src root.children with
  | .ok children => .ok ⟨root.label.kind, regroup children⟩
  | .error e => .error e

theorem toNode_ok_iff {root : Concrete} {n : Node} :
    root.toNode src = .ok n ↔
      ∃ es, elements src root.children = .ok es ∧ n = ⟨root.label.kind, regroup es⟩ := by
  rw [toNode]
  cases elements src root.children <;> simp [eq_comm]

end Concrete

/-! ## Trees added to tables -/

namespace Concrete

mutual

/-- The draft after a tree is added to a table. -/
def place (src : Encoded) (table : Nat) : Concrete → Draft → Except Failure Draft
  | mk l [], draft => (src.token? l).map (draft.addToken table (mk l []).slot)
  | mk l (c :: cs), draft =>
      placeAll src draft.size (c :: cs) (draft.openNode table (mk l (c :: cs)).slot l.kind)

/-- The draft after trees are added to a table, one after the other. -/
def placeAll (src : Encoded) (table : Nat) : List Concrete → Draft → Except Failure Draft
  | [], draft => .ok draft
  | c :: rest, draft => place src table c draft >>= placeAll src table rest

end

/-- The draft after the siblings of nodes are added to tables, those of the first node to the first
table. -/
def placeAround (src : Encoded) :
    List (Concrete × List Concrete) → List Nat → Draft → Except Failure Draft
  | (_, later) :: around, table :: tables, draft =>
      placeAll src table later draft >>= placeAround src around tables
  | _, _, draft => .ok draft

end Concrete

/-! ## The loop -/

section Loop

variable (src : Encoded)

/-- The draft after all nodes behind the subtree at a cursor are added. -/
def placeBehind (cursor : TreeCursor) (top : Nat) (outer : List Nat)
    (draft : Draft) : Except Failure Draft :=
  Concrete.placeAll src top cursor.later draft >>= Concrete.placeAround src cursor.around outer

theorem placeBehind_parent {cursor : TreeCursor} {top table : Nat} {outer : List Nat}
    (last : cursor.nextSibling? = none) (inStep : cursor.around.length = outer.length + 2) :
    (cursor.parent?.getD cursor).around.length = outer.length + 1 ∧
    placeBehind src cursor top (table :: outer) =
      placeBehind src (cursor.parent?.getD cursor) table outer := by
  obtain ⟨node, _ | ⟨sibling, later⟩, _ | ⟨⟨parent, siblings⟩, around⟩⟩ := cursor
  · simp at inStep
  · exact ⟨Nat.succ.inj inStep, rfl⟩
  · cases last
  · cases last

/-- The stack stays in step with the nodes around the cursor, and what is behind the cursor is the
node it moves to and what is behind that one. -/
theorem advance_some {cursor next : TreeCursor} {top table : Nat} {outer rest : List Nat}
    (inStep : cursor.around.length = outer.length + 1)
    (moved : advance cursor top outer = some (next, table, rest)) (draft : Draft) :
    next.around.length = rest.length + 1 ∧
    placeBehind src cursor top outer draft =
      Concrete.place src table next.node draft >>= placeBehind src next table rest := by
  fun_induction advance cursor top outer with
  | case1 outer cursor top sibling found =>
    obtain ⟨node, _ | ⟨sibling, later⟩, around⟩ := cursor
    · cases found
    · cases found
      cases moved
      refine ⟨inStep, ?_⟩
      rw [placeBehind, Concrete.placeAll, bind_assoc]
      rfl
  | case2 => cases moved
  | case3 cursor top parent outer last ih =>
    obtain ⟨parentInStep, behind⟩ := placeBehind_parent src last inStep
    rw [behind]
    exact ih parentInStep moved

/-- With a single table left and no sibling, nothing is behind the cursor. -/
theorem advance_none {cursor : TreeCursor} {top : Nat} {outer : List Nat}
    (inStep : cursor.around.length = outer.length + 1)
    (ended : advance cursor top outer = none) (draft : Draft) :
    placeBehind src cursor top outer draft = .ok draft := by
  fun_induction advance cursor top outer with
  | case1 => cases ended
  | case2 cursor top last =>
    obtain ⟨node, _ | ⟨sibling, later⟩, around⟩ := cursor
    · rw [placeBehind, Concrete.placeAll]
      cases around <;> rfl
    · cases last
  | case3 cursor top parent outer last ih =>
    obtain ⟨parentInStep, behind⟩ := placeBehind_parent src last inStep
    rw [behind]
    exact ih parentInStep ended

theorem place_leaf {c : Concrete} (leaf : c.children.isEmpty = true) (table : Nat) (draft : Draft) :
    Concrete.place src table c draft = (src.token? c.label).map (draft.addToken table c.slot) := by
  obtain ⟨l, _ | ⟨d, ds⟩⟩ := c
  · rw [Concrete.place]
    rfl
  · cases leaf

/-- The loop adds the node at the cursor to the table on top, and then all nodes behind it. -/
theorem readNodes_eq_place {cursor : TreeCursor} {draft : Draft} {top : Nat} {outer : List Nat}
    (inStep : cursor.around.length = outer.length + 1) :
    readNodes src cursor draft top outer =
      Concrete.place src top cursor.node draft >>= placeBehind src cursor top outer := by
  -- The stack has a table for each node around the cursor: a descent adds to both, and `advance`
  -- takes as many off both.
  fun_induction readNodes src cursor draft top outer with
  | case1 cursor draft top outer node leaf e failed =>
    rw [place_leaf src leaf, failed]
    rfl
  | case2 cursor draft top outer node leaf found read draft' next table rest moved ih =>
    obtain ⟨nextInStep, behind⟩ := advance_some src inStep moved draft'
    rw [ih nextInStep, place_leaf src leaf, read, ← behind]
    rfl
  | case3 cursor draft top outer node leaf found read draft' ended =>
    rw [place_leaf src leaf, read]
    exact (advance_none src inStep ended draft').symm
  | case4 cursor draft top outer node inner ih =>
    obtain ⟨⟨l, _ | ⟨c, cs⟩⟩, later, around⟩ := cursor
    · exact absurd rfl inner
    · rw [ih (congrArg Nat.succ inStep), Concrete.place, Concrete.placeAll, bind_assoc]
      rfl

end Loop

/-! ## What is added -/

/-- The result of adding elements to a table, or of failing with them. -/
def Draft.Adding (draft : Draft) (table : Nat) (result : Except Failure Draft) :
    Except Failure (List Element) → Prop
  | .error e => result = .error e
  | .ok es => ∃ new items, result = .ok new ∧ draft.Adds new table items es

namespace Concrete

mutual

theorem place_adds (src : Encoded) (c : Concrete) (draft : Draft) {table : Nat}
    (inside : table < draft.size) :
    draft.Adding table (place src table c draft) ((element? src c).map Option.toList) := by
  obtain ⟨l, _ | ⟨d, ds⟩⟩ := c
  · rw [place, element?]
    cases src.token? l with
    | error e => rfl
    | ok found =>
      cases found with
      | none => exact ⟨_, _, rfl, .none draft table⟩
      | some t => exact ⟨_, _, rfl, .token inside _ t⟩
  · have larger : draft.size < (draft.openNode table (mk l (d :: ds)).slot l.kind).size := by
      simp [Draft.openNode]
    have below := placeAll_adds src (d :: ds) _ larger
    rw [place, element?]
    cases read : elements src (d :: ds) with
    | error e =>
      rw [read] at below
      exact below
    | ok es =>
      rw [read] at below
      obtain ⟨new, items, placed, adds⟩ := below
      exact ⟨new, _, placed, adds.node inside⟩

/-- Trees add to a table the elements that they become. -/
theorem placeAll_adds (src : Encoded) (cs : List Concrete) (draft : Draft) {table : Nat}
    (inside : table < draft.size) :
    draft.Adding table (placeAll src table cs draft) (elements src cs) := by
  cases cs with
  | nil => exact ⟨draft, [], rfl, .none draft table⟩
  | cons c rest =>
    have first := place_adds src c draft inside
    rw [placeAll, elements]
    cases read : element? src c with
    | error e =>
      rw [read] at first
      rw [show place src table c draft = .error e from first]
      rfl
    | ok found =>
      rw [read] at first
      obtain ⟨mid, items, placed, adds⟩ := first
      rw [placed]
      have second := placeAll_adds src rest mid (Nat.lt_of_lt_of_le inside adds.size_le)
      cases others : elements src rest with
      | error e =>
        rw [others] at second
        exact second
      | ok es =>
        rw [others] at second
        obtain ⟨new, more, placedRest, addsRest⟩ := second
        exact ⟨new, _, placedRest, adds.trans inside addsRest⟩

end

end Concrete

/-- The children in the first table of a draft, after elements are added to it. -/
theorem Draft.Adds.children_eq {new : Draft} {items : List (String × SlotEntry)} {es : List Element}
    (adds : Draft.Adds #[[]] new 0 items es) : new.children[0]?.getD [] = regroup es := by
  have own : new[0]?.getD [] = SlotTable.addAll [] items := adds.own
  have ordered : ∀ k, ∀ r ∈ SlotTable.refs (new[k]?.getD []), k < r := by
    intro k r referred
    cases k with
    | zero =>
      rw [own, SlotTable.mem_refs_addAll] at referred
      rcases referred with none | ⟨item, member, refers⟩
      · cases none
      · exact adds.fresh item member r refers
    | succ k => exact adds.ordered (k + 1) (Nat.succ_pos k) r referred
  have tells := Draft.tells_children ordered
  rw [tells 0 (Nat.le_refl 0) adds.size_le, own, SlotTable.elements_addAll,
    adds.stand _ fun k past before => tells k (Nat.zero_le k) before]

/-- The loop reads the tree that the recursion makes. -/
theorem readTree_eq_toNode (src : Encoded) (tree : Concrete) :
    readTree src tree = tree.toNode src := by
  obtain ⟨l, _ | ⟨c, cs⟩⟩ := tree
  · rfl
  · have loop : readNodes src ⟨c, cs, [(.mk l (c :: cs), [])]⟩ #[[]] 0 [] =
        Concrete.placeAll src 0 (c :: cs) #[[]] := by
      rw [readNodes_eq_place src rfl, Concrete.placeAll]
      exact congrArg _ (funext fun draft => bind_pure _)
    have adding := Concrete.placeAll_adds src (c :: cs) #[[]] Nat.one_pos
    rw [← loop] at adding
    rw [Concrete.toNode]
    cases read : Concrete.elements src (c :: cs) with
    | error e =>
      rw [read] at adding
      have failed : readNodes src ⟨c, cs, [(.mk l (c :: cs), [])]⟩ #[[]] 0 [] = .error e := adding
      simp [readTree, TreeCursor.atRoot, TreeCursor.firstChild?, Concrete.children, failed, read]
    | ok es =>
      rw [read] at adding
      obtain ⟨new, items, placed, adds⟩ := adding
      simp [readTree, TreeCursor.atRoot, TreeCursor.firstChild?, Concrete.children, placed, read,
        adds.children_eq]

end JavaSurvey
