import JavaSurvey.Syntax.ByteMap
import JavaSurvey.Syntax.Draft
import JavaSurvey.Syntax.TreeCursor

/-!
# Reading a concrete tree

A concrete tree becomes a syntax tree: its leaves become tokens, except those that span no byte,
and every other node becomes a node with the same children, slot by slot.

* `advance` moves a cursor on, and keeps a stack of open tables in step with it;
* `readTree` fills these tables, so that nesting is unbounded;
* `parse` reads the tree of a source, and fails where the grammar marked a fault.
-/

namespace JavaSurvey

namespace Encoded

/-- The token of a leaf, if it spans any byte. -/
def token? (src : Encoded) (leaf : Label) : Except Failure (Option Token) :=
  if leaf.startByte < leaf.endByte then
    match src.charOffset leaf.startByte, src.charOffset leaf.endByte with
    | .ok start, .ok stop =>
        .ok (some {
          image := src.textBetween leaf.startByte leaf.endByte
          start := start
          finish := if start < stop - 1 then some (stop - 1) else none })
    | .error e, _ => .error e
    | _, .error e => .error e
  else .ok none

end Encoded

/-- Moves a cursor to the next node outside the subtree it is at. Each node that it leaves on the
way is no longer open, so its table is taken off the stack. With a single table on the stack,
nothing is left to move to. -/
def advance (cursor : TreeCursor) (top : Nat) (outer : List Nat) :
    Option (TreeCursor × Nat × List Nat) :=
  match cursor.nextSibling?, outer with
  | some next, _ => some (next, top, outer)
  | none, [] => none
  | none, table :: rest => advance (cursor.parent?.getD cursor) table rest

theorem ahead_advance {cursor next : TreeCursor} {top table : Nat} {outer rest : List Nat}
    (moved : advance cursor top outer = some (next, table, rest)) :
    next.node.size + next.ahead ≤ cursor.ahead := by
  fun_induction advance cursor top outer with
  | case1 cursor top outer sibling found =>
    cases moved
    exact Nat.le_of_eq (TreeCursor.ahead_nextSibling found)
  | case2 => cases moved
  | case3 cursor top parent outer last ih => exact Nat.le_trans (ih moved) cursor.ahead_parent_le

/-- Reads the node at a cursor and all nodes after it. The stack has the tables of the nodes that
the cursor is in, `top` for the innermost one. -/
def readNodes (src : Encoded) (cursor : TreeCursor) (draft : Draft) (top : Nat)
    (outer : List Nat) : Except Failure Draft :=
  let node := cursor.node
  if node.children.isEmpty then
    match src.token? node.label with
    | .error e => .error e
    | .ok found =>
        let draft := draft.addToken top node.slot found
        match _ : advance cursor top outer with
        | some (next, table, rest) => readNodes src next draft table rest
        | none => .ok draft
  else
    readNodes src (cursor.firstChild?.getD cursor) (draft.openNode top node.slot node.label.kind)
      draft.size (top :: outer)
termination_by cursor.node.size + cursor.ahead
decreasing_by
  · have fewer := ahead_advance ‹_›
    rw [Concrete.size_eq cursor.node]
    omega
  · exact TreeCursor.ahead_firstChild_lt ‹_›

/-- Reads a tree with a cursor that goes through it in the order of the document. -/
def readTree (src : Encoded) (tree : Concrete) : Except Failure Node :=
  match (TreeCursor.atRoot tree).firstChild? with
  | none => .ok ⟨tree.label.kind, []⟩
  | some cursor =>
      match readNodes src cursor #[[]] 0 [] with
      | .ok draft => .ok ⟨tree.label.kind, draft.children[0]?.getD []⟩
      | .error e => .error e

/-- The syntax tree of a source with its concrete tree. -/
def parse (source : Text) (root : Concrete) : Except Failure Node :=
  let src := Encoded.ofText source
  if root.label.hasError then
    match src.charOffset root.firstFaultByte with
    | .ok offset => .error (.syntaxError offset)
    | .error e => .error e
  else
    readTree src root

end JavaSurvey
