import JavaSurvey.Syntax.Walk

/-!
# Walks and ranges

Each walk over a syntax tree keeps a stack. Here it is tied to what the tree holds by recursion:

1. `tokensOf_eq`: the tokens collected from a stack are those of its elements, in slot order;
2. `Node.findAll_eq`: the nodes found by name are those of the tree, each before those below it;
3. `Node.walks_eq_recursion`: all walks from a node together;
4. `Node.mem_tokens_of_mem_preorder`: a node of a tree has tokens of the tree only;
5. `rangeOf?_bounds`: the range of some tokens holds each of them and is no larger than needed.
-/

namespace JavaSurvey

namespace Element

/-! ## Tokens and nodes of elements -/

@[simp] theorem tokensAll_append (xs ys : List Element) :
    tokensAll (xs ++ ys) = tokensAll xs ++ tokensAll ys := by
  induction xs with
  | nil => rfl
  | cons x xs ih => simp [tokensAll, ih]

theorem tokensAll_eq_flatMap (es : List Element) : tokensAll es = es.flatMap tokens := by
  induction es with
  | nil => rfl
  | cons e es ih => rw [tokensAll, ih, List.flatMap_cons]

theorem mem_tokensAll {t : Token} {es : List Element} :
    t ∈ tokensAll es ↔ ∃ e ∈ es, t ∈ e.tokens := by
  induction es with
  | nil => simp [tokensAll]
  | cons e es ih => simp [tokensAll, ih]

/-- The nodes of some elements are those of the trees among them. -/
theorem nodesAll_eq (es : List Element) :
    nodesAll es = (es.filterMap node?).flatMap Node.preorder := by
  induction es with
  | nil => rfl
  | cons e es ih =>
    cases e with
    | token s t =>
      rw [List.filterMap_cons_none (by rfl), ← ih]
      rfl
    | node s name children =>
      rw [List.filterMap_cons_some (by rfl), List.flatMap_cons, ← ih]
      rfl

mutual

/-- A node of an element has tokens of the element only. -/
theorem mem_tokens_of_mem_nodes {n : Node} {t : Token} {e : Element} (below : n ∈ e.nodes)
    (member : t ∈ tokensAll n.children) : t ∈ e.tokens := by
  cases e with
  | token s u => simp [nodes] at below
  | node s name children =>
    rw [tokens]
    rcases List.mem_cons.mp (by simpa [nodes] using below) with rfl | deeper
    · exact member
    · exact mem_tokensAll_of_mem_nodesAll deeper member

theorem mem_tokensAll_of_mem_nodesAll {n : Node} {t : Token} {es : List Element}
    (below : n ∈ nodesAll es) (member : t ∈ tokensAll n.children) : t ∈ tokensAll es := by
  cases es with
  | nil => simp [nodesAll] at below
  | cons e es =>
    simp only [nodesAll, List.mem_append] at below
    simp only [tokensAll, List.mem_append]
    rcases below with inHead | inTail
    · exact Or.inl (mem_tokens_of_mem_nodes inHead member)
    · exact Or.inr (mem_tokensAll_of_mem_nodesAll inTail member)

end

mutual

/-- The nodes of a node of an element are nodes of the element. -/
theorem mem_nodes_of_mem_preorder {n m : Node} {e : Element} (below : n ∈ e.nodes)
    (deeper : m ∈ n.preorder) : m ∈ e.nodes := by
  cases e with
  | token s u => simp [nodes] at below
  | node s name children =>
    rw [nodes] at below ⊢
    rcases List.mem_cons.mp below with rfl | inChildren
    · exact deeper
    · exact List.mem_cons_of_mem _ (mem_nodesAll_of_mem_preorder inChildren deeper)

theorem mem_nodesAll_of_mem_preorder {n m : Node} {es : List Element} (below : n ∈ nodesAll es)
    (deeper : m ∈ n.preorder) : m ∈ nodesAll es := by
  cases es with
  | nil => simp [nodesAll] at below
  | cons e es =>
    rw [nodesAll] at below ⊢
    rcases List.mem_append.mp below with inHead | inTail
    · exact List.mem_append_left _ (mem_nodes_of_mem_preorder inHead deeper)
    · exact List.mem_append_right _ (mem_nodesAll_of_mem_preorder inTail deeper)

end

mutual

theorem size_le_of_mem_nodes {n : Node} {e : Element} (below : n ∈ e.nodes) : n.size ≤ e.size := by
  cases e with
  | token s u => simp [nodes] at below
  | node s name children =>
    rw [nodes] at below
    rw [size]
    rcases List.mem_cons.mp below with rfl | inChildren
    · exact Nat.le_refl _
    · exact Nat.le_succ_of_le (size_le_of_mem_nodesAll inChildren)

theorem size_le_of_mem_nodesAll {n : Node} {es : List Element} (below : n ∈ nodesAll es) :
    n.size ≤ sizeAll es := by
  cases es with
  | nil => simp [nodesAll] at below
  | cons e es =>
    rw [nodesAll] at below
    rw [sizeAll]
    rcases List.mem_append.mp below with inHead | inTail
    · exact Nat.le_add_right_of_le (size_le_of_mem_nodes inHead)
    · exact Nat.le_add_left_of_le (size_le_of_mem_nodesAll inTail)

end

end Element

/-- Regrouping children by slot neither adds nor drops any. -/
@[simp] theorem mem_regroup {e : Element} {children : List Element} :
    e ∈ regroup children ↔ e ∈ children := by
  simp only [regroup, slotsOf, List.mem_flatMap, List.mem_eraseDups, List.mem_map,
    List.mem_filter, beq_iff_eq]
  constructor
  · rintro ⟨_, _, member, _⟩
    exact member
  · intro member
    exact ⟨e.slot, ⟨e, member, rfl⟩, member, rfl⟩

@[simp] theorem mem_tokensAll_regroup {t : Token} {children : List Element} :
    t ∈ Element.tokensAll (regroup children) ↔ t ∈ Element.tokensAll children := by
  simp [Element.mem_tokensAll]

/-! ## Walks -/

theorem collectTokens_eq (stack : List Element) (found : List Token) :
    collectTokens stack found = found.reverse ++ Element.tokensAll stack := by
  fun_induction collectTokens stack found with
  | case1 found => simp [Element.tokensAll]
  | case2 s t rest found ih => simp [ih, Element.tokensAll, Element.tokens]
  | case3 s name children rest found ih => simp [ih, Element.tokensAll, Element.tokens]

/-- The walk collects the tokens of the elements, one element after the other. -/
theorem tokensOf_eq (children : List Element) : tokensOf children = Element.tokensAll children := by
  simp [tokensOf, collectTokens_eq]

theorem collectNodes_eq (name : String) (stack found : List Node) :
    collectNodes name stack found =
      found.reverse ++ (stack.flatMap Node.preorder).filter (·.name = name) := by
  fun_induction collectNodes name stack found with
  | case1 found => simp
  | case2 n rest found ih =>
    -- The walk puts the child nodes before the rest, which is where the preorder has them.
    have below : n.childNodes.flatMap Node.preorder = Element.nodesAll n.children :=
      (Element.nodesAll_eq n.children).symm
    simp only [dite_eq_ite] at ih
    rw [ih, List.flatMap_append, below, List.flatMap_cons, Node.preorder, List.cons_append,
      List.filter_cons]
    split <;> simp_all

theorem findNode_eq (name : String) (stack : List Node) :
    findNode name stack = (stack.flatMap Node.preorder).find? (·.name = name) := by
  fun_induction findNode name stack with
  | case1 => rfl
  | case2 n rest named => simp [Node.preorder, named]
  | case3 n rest other ih =>
    have below : n.childNodes.flatMap Node.preorder = Element.nodesAll n.children :=
      (Element.nodesAll_eq n.children).symm
    rw [ih, List.flatMap_append, below, List.flatMap_cons, Node.preorder, List.cons_append,
      List.find?_cons_of_neg (by simpa using other)]

namespace Node

/-- The walk finds the nodes of a name, each before those below it. -/
theorem findAll_eq (n : Node) (name : String) :
    n.findAll name = n.preorder.filter (·.name = name) := by
  simp [findAll, collectNodes_eq]

/-- The first node of a name is the first of all that are found. -/
theorem find?_eq_head? (n : Node) (name : String) : n.find? name = (n.findAll name).head? := by
  rw [find?, findNode_eq, findAll_eq, List.head?_filter, List.flatMap_singleton]

theorem tokens_eq (n : Node) : n.tokens = Element.tokensAll n.children :=
  tokensOf_eq n.children

/-- The walks do by a stack what recursion on the tree does. The tokens of a node are those of its
children, one child after the other, and slot after slot if its children are in slot order. The
nodes of a name are those of the preorder that have it, and the first of them is found alone. -/
theorem walks_eq_recursion (n : Node) :
    n.tokens = n.children.flatMap Element.tokens ∧
    (∀ es, n.children = regroup es →
      n.tokens = (slotsOf es).flatMap fun s => (es.filter (·.slot == s)).flatMap Element.tokens) ∧
    ∀ name,
      n.findAll name = n.preorder.filter (·.name = name) ∧
      n.find? name = (n.preorder.filter (·.name = name)).head? := by
  have tokens : n.tokens = n.children.flatMap Element.tokens := by
    rw [tokens_eq, Element.tokensAll_eq_flatMap]
  refine ⟨tokens, fun es grouped => ?_, fun name => ⟨n.findAll_eq name, ?_⟩⟩
  · rw [tokens, grouped, regroup, List.flatMap_assoc]
  · rw [find?_eq_head?, findAll_eq]

theorem mem_tokens_of_mem_preorder {n m : Node} {t : Token} (below : m ∈ n.preorder)
    (member : t ∈ m.tokens) : t ∈ n.tokens := by
  rw [tokens_eq] at member ⊢
  rcases List.mem_cons.mp below with rfl | deeper
  · exact member
  · exact Element.mem_tokensAll_of_mem_nodesAll deeper member

theorem mem_preorder_trans {root n m : Node} (below : n ∈ root.preorder)
    (deeper : m ∈ n.preorder) : m ∈ root.preorder := by
  rcases List.mem_cons.mp below with rfl | inChildren
  · exact deeper
  · exact List.mem_cons_of_mem _ (Element.mem_nodesAll_of_mem_preorder inChildren deeper)

theorem size_le_of_mem_preorder {n m : Node} (below : m ∈ n.preorder) : m.size ≤ n.size := by
  rcases List.mem_cons.mp below with rfl | inChildren
  · exact Nat.le_refl _
  · exact Nat.le_succ_of_le (Element.size_le_of_mem_nodesAll inChildren)

/-- A child that is a node is among the nodes below its parent. -/
theorem mem_nodesAll_of_child {n m : Node} {e : Element} (child : e ∈ n.children)
    (isNode : e.node? = some m) : m ∈ Element.nodesAll n.children := by
  rw [Element.nodesAll_eq]
  exact List.mem_flatMap.mpr ⟨m, List.mem_filterMap.mpr ⟨e, child, isNode⟩, List.mem_cons_self⟩

/-- A node found by name in a tree has tokens of the tree only. -/
theorem mem_tokens_of_mem_findAll {n m : Node} {name : String} {t : Token}
    (found : m ∈ n.findAll name) (member : t ∈ m.tokens) : t ∈ n.tokens := by
  rw [findAll_eq] at found
  exact mem_tokens_of_mem_preorder (List.mem_filter.mp found).1 member

/-- A child that is a node has tokens of its parent only. -/
theorem mem_tokens_of_child {n m : Node} {e : Element} {t : Token} (child : e ∈ n.children)
    (isNode : e.node? = some m) (member : t ∈ m.tokens) : t ∈ n.tokens := by
  rw [tokens_eq] at member ⊢
  refine Element.mem_tokensAll.mpr ⟨e, child, ?_⟩
  cases e with
  | token s u => simp [Element.node?] at isNode
  | node s name children =>
    obtain rfl := Option.some.inj isNode
    simpa [Element.tokens] using member

end Node

/-! ## Ranges -/

/-- A token has its first and its last character, in this order, in a text of `length`
characters. -/
structure Token.Within (t : Token) (length : Nat) : Prop where
  nonneg : 0 ≤ t.start
  ordered : t.start ≤ t.last
  bounded : t.last < length

instance (t : Token) (length : Nat) : Decidable (t.Within length) :=
  decidable_of_iff (0 ≤ t.start ∧ t.start ≤ t.last ∧ t.last < length)
    ⟨fun ⟨a, b, c⟩ => ⟨a, b, c⟩, fun ⟨a, b, c⟩ => ⟨a, b, c⟩⟩

theorem leastFrom_spec (x : Int) (xs : List Int) :
    leastFrom x xs ∈ x :: xs ∧ ∀ y ∈ x :: xs, leastFrom x xs ≤ y :=
  List.min?_eq_some_iff.mp List.min?_cons'

theorem greatestFrom_spec (x : Int) (xs : List Int) :
    greatestFrom x xs ∈ x :: xs ∧ ∀ y ∈ x :: xs, y ≤ greatestFrom x xs :=
  List.max?_eq_some_iff.mp List.max?_cons'

/-- A range starts where one of its tokens starts, ends right after one, and holds all of them. -/
theorem rangeOf?_bounds {tokens : List Token} {a b : Int} (range : rangeOf? tokens = some (a, b)) :
    (∃ t ∈ tokens, t.start = a) ∧ (∃ t ∈ tokens, t.last + 1 = b) ∧
      ∀ t ∈ tokens, a ≤ t.start ∧ t.last < b := by
  cases tokens with
  | nil => simp [rangeOf?] at range
  | cons t rest =>
    simp only [rangeOf?, Option.some.injEq, Prod.mk.injEq] at range
    obtain ⟨rfl, rfl⟩ := range
    have least := leastFrom_spec t.start (rest.map Token.start)
    have greatest := greatestFrom_spec t.last (rest.map Token.last)
    rw [← List.map_cons] at least greatest
    refine ⟨List.mem_map.mp least.1, ?_, ?_⟩
    · obtain ⟨u, member, equal⟩ := List.mem_map.mp greatest.1
      exact ⟨u, member, by rw [equal]⟩
    · intro u member
      have low := least.2 u.start (List.mem_map_of_mem member)
      have high := greatest.2 u.last (List.mem_map_of_mem member)
      exact ⟨low, by omega⟩

/-- Tokens that are among others have a range inside that of the others. -/
theorem rangeOf?_nested {tokens others : List Token} (subset : ∀ t ∈ tokens, t ∈ others)
    {a b c d : Int} (outer : rangeOf? others = some (a, b))
    (inner : rangeOf? tokens = some (c, d)) : a ≤ c ∧ d ≤ b := by
  obtain ⟨-, -, holds⟩ := rangeOf?_bounds outer
  obtain ⟨⟨t, first, rfl⟩, ⟨u, final, rfl⟩, -⟩ := rangeOf?_bounds inner
  exact ⟨(holds t (subset t first)).1, by have := (holds u (subset u final)).2; omega⟩

namespace Node

/-- A tree with tokens in a text has a nonempty range in that text. -/
theorem range?_within {n : Node} {length : Nat} (inside : ∀ t ∈ n.tokens, t.Within length)
    {a b : Int} (range : n.range? = some (a, b)) : 0 ≤ a ∧ a < b ∧ b ≤ length := by
  obtain ⟨⟨t, first, rfl⟩, ⟨u, final, rfl⟩, holds⟩ := rangeOf?_bounds range
  have start := inside t first
  have stop := inside u final
  have order := (holds t first).2
  exact ⟨start.nonneg, by have := start.ordered; omega, by have := stop.bounded; omega⟩

/-- A tree whose tokens are among those of another one has a range inside the other's. -/
theorem range?_nested {n m : Node} (subset : ∀ t ∈ m.tokens, t ∈ n.tokens) {a b c d : Int}
    (outer : n.range? = some (a, b)) (inner : m.range? = some (c, d)) : a ≤ c ∧ d ≤ b :=
  rangeOf?_nested subset outer inner

end Node

end JavaSurvey
