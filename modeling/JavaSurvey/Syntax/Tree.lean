/-!
# Syntax trees

A syntax tree has named nodes and, as leaves, tokens with their place in the source. Every child
stands in a slot of its node, named by its role. The children of a node are kept slot by slot: the
slots in the order of their first use, and the children of one slot in the order in which they
were added.

Main definitions:

* `Element`, a child with its slot, and `Node`, a node seen on its own;
* `regroup`, which brings children into slot order;
* `Element.tokens` and `Node.preorder`, the tokens below an element and the nodes of a tree.
-/

namespace JavaSurvey

/-- A leaf of a syntax tree: its characters and the offsets of the first and the last of them. -/
structure Token where
  image : String
  start : Int
  /-- The offset of the last character, absent for a token of one character. -/
  finish : Option Int := none
  deriving DecidableEq, Repr, Inhabited

/-- The offset of the last character of a token. -/
def Token.last (t : Token) : Int :=
  t.finish.getD t.start

/-- A child of a node, with the slot it stands in. -/
inductive Element where
  | token (slot : String) (token : Token)
  | node (slot : String) (name : String) (children : List Element)
  deriving Repr, Inhabited

/-- A node of a syntax tree, without the slot it stands in. -/
structure Node where
  name : String
  children : List Element
  deriving Repr, Inhabited

namespace Element

/-- The slot of a child. -/
def slot : Element → String
  | token s _ => s
  | node s _ _ => s

/-- The token, if the child is one. -/
def token? : Element → Option Token
  | token _ t => some t
  | node .. => none

/-- The node, if the child is one. -/
def node? : Element → Option Node
  | token .. => none
  | node _ name children => some ⟨name, children⟩

mutual

/-- The number of nodes and tokens of an element. -/
def size : Element → Nat
  | token .. => 1
  | node _ _ children => sizeAll children + 1

/-- The number of nodes and tokens of several elements. -/
def sizeAll : List Element → Nat
  | [] => 0
  | e :: rest => size e + sizeAll rest

end

mutual

/-- The tokens of an element, in slot order. -/
def tokens : Element → List Token
  | token _ t => [t]
  | node _ _ children => tokensAll children

/-- The tokens of several elements, one after the other. -/
def tokensAll : List Element → List Token
  | [] => []
  | e :: rest => tokens e ++ tokensAll rest

end

mutual

/-- The nodes of an element, each before those below it. -/
def nodes : Element → List Node
  | token .. => []
  | node _ name children => ⟨name, children⟩ :: nodesAll children

/-- The nodes of several elements, one after the other. -/
def nodesAll : List Element → List Node
  | [] => []
  | e :: rest => nodes e ++ nodesAll rest

end

@[simp] theorem sizeAll_append (xs ys : List Element) :
    sizeAll (xs ++ ys) = sizeAll xs + sizeAll ys := by
  induction xs with
  | nil => simp [sizeAll]
  | cons x xs ih => simp [sizeAll, ih, Nat.add_assoc]

end Element

/-- The slots of some children, in the order of their first use. -/
def slotsOf (children : List Element) : List String :=
  (children.map Element.slot).eraseDups

/-- The same children, slot by slot. -/
def regroup (children : List Element) : List Element :=
  (slotsOf children).flatMap fun s => children.filter (·.slot == s)

namespace Node

/-- The children in a slot. -/
def inSlot (n : Node) (slot : String) : List Element :=
  n.children.filter (·.slot == slot)

/-- The children that are nodes. -/
def childNodes (n : Node) : List Node :=
  n.children.filterMap Element.node?

/-- The nodes of a tree, each before those below it. -/
def preorder (n : Node) : List Node :=
  n :: Element.nodesAll n.children

/-- The number of nodes and tokens of a tree. -/
def size (n : Node) : Nat :=
  Element.sizeAll n.children + 1

/-- The number of nodes and tokens of several trees. -/
def sizeAll : List Node → Nat
  | [] => 0
  | n :: rest => n.size + sizeAll rest

@[simp] theorem sizeAll_append (xs ys : List Node) :
    sizeAll (xs ++ ys) = sizeAll xs + sizeAll ys := by
  induction xs with
  | nil => simp [sizeAll]
  | cons x xs ih => simp [sizeAll, ih, Nat.add_assoc]

theorem sizeAll_filterMap_le (es : List Element) :
    sizeAll (es.filterMap Element.node?) ≤ Element.sizeAll es := by
  induction es with
  | nil => simp [sizeAll]
  | cons e es ih =>
      cases e with
      | token s t =>
          rw [List.filterMap_cons_none (by rfl)]
          simp only [Element.sizeAll, Element.size]
          omega
      | node s name children =>
          rw [List.filterMap_cons_some (by rfl)]
          simp only [Element.sizeAll, Element.size, sizeAll, size]
          omega

end Node

end JavaSurvey
