import JavaSurvey.Syntax.Concrete

/-!
# Cursors in concrete trees

A cursor stands at a node of a concrete tree. It moves to the first child, to the next sibling or to
the parent of the node, and a move to a node that is not there leaves it where it is.

Main definitions:

* `TreeCursor.firstChild?`, `TreeCursor.nextSibling?` and `TreeCursor.parent?`, the moves;
* `TreeCursor.ahead`, the number of nodes that come after those of the subtree at the cursor.
-/

namespace JavaSurvey

/-- A place in a concrete tree. -/
structure TreeCursor where
  /-- The node at the cursor. -/
  node : Concrete
  /-- The siblings after it. -/
  later : List Concrete
  /-- The nodes around it, each with the siblings after it, the innermost first. -/
  around : List (Concrete × List Concrete)

namespace TreeCursor

/-- The cursor at the root of a tree. -/
def atRoot (tree : Concrete) : TreeCursor :=
  ⟨tree, [], []⟩

/-- The cursor at the first child. -/
def firstChild? (c : TreeCursor) : Option TreeCursor :=
  match c.node.children with
  | [] => none
  | first :: rest => some ⟨first, rest, (c.node, c.later) :: c.around⟩

/-- The cursor at the next sibling. -/
def nextSibling? (c : TreeCursor) : Option TreeCursor :=
  match c.later with
  | [] => none
  | next :: rest => some ⟨next, rest, c.around⟩

/-- The cursor at the parent. -/
def parent? (c : TreeCursor) : Option TreeCursor :=
  match c.around with
  | [] => none
  | (parent, later) :: outer => some ⟨parent, later, outer⟩

/-- The number of nodes of the trees after each of some nodes. -/
def aheadOf : List (Concrete × List Concrete) → Nat
  | [] => 0
  | (_, later) :: outer => Concrete.sizeAll later + aheadOf outer

/-- The number of nodes after those of the subtree at the cursor. -/
def ahead (c : TreeCursor) : Nat :=
  Concrete.sizeAll c.later + aheadOf c.around

theorem ahead_firstChild_lt {c : TreeCursor} (inner : ¬ c.node.children.isEmpty = true) :
    (c.firstChild?.getD c).node.size + (c.firstChild?.getD c).ahead < c.node.size + c.ahead := by
  cases children : c.node.children with
  | nil => simp [children] at inner
  | cons first rest =>
    simp only [firstChild?, children, Option.getD_some, ahead, aheadOf, Concrete.size_eq c.node,
      Concrete.sizeAll]
    omega

theorem ahead_nextSibling {c next : TreeCursor} (moved : c.nextSibling? = some next) :
    next.node.size + next.ahead = c.ahead := by
  unfold nextSibling? at moved
  split at moved
  · cases moved
  · next sibling rest later =>
    cases moved
    simp only [ahead, later, Concrete.sizeAll, Nat.add_assoc]

theorem ahead_parent_le (c : TreeCursor) : (c.parent?.getD c).ahead ≤ c.ahead := by
  obtain ⟨node, later, _ | ⟨⟨parent, siblings⟩, outer⟩⟩ := c
  · exact Nat.le_refl _
  · simp only [parent?, Option.getD_some, ahead, aheadOf]
    omega

end TreeCursor

end JavaSurvey
