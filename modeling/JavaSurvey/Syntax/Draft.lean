import JavaSurvey.Syntax.Tree

/-!
# Drafts of syntax trees

A syntax tree that is being built. Each of its nodes has a table with its children by slot, and a
node that is a child is referred to by the number of its table. So a node can stand in the table of
its parent before it has any children, and still get them afterwards.

Main definitions:

* `SlotTable.add`, which adds a child to a slot and makes the slot if it is not there yet;
* `Draft.addToken` and `Draft.openNode`, which add a child to a table of a draft;
* `Draft.children`, which reads the finished tree.
-/

namespace JavaSurvey

/-- A child in a table: a token, or a node with the number of its own table. -/
inductive SlotEntry where
  | token (token : Token)
  | node (name : String) (table : Nat)

/-- The slots of a node in the order of their first use, each with the children in it. -/
abbrev SlotTable := List (String × Array SlotEntry)

/-- Adds a child to a slot, which comes after the others if it is not there yet. -/
def SlotTable.add (slot : String) (entry : SlotEntry) : SlotTable → SlotTable
  | [] => [(slot, #[entry])]
  | (s, entries) :: rest =>
      if s = slot then (s, entries.push entry) :: rest
      else (s, entries) :: SlotTable.add slot entry rest

/-- The tables of a tree that is being built. The first one is that of the root, and every other one
comes after that of the node it is below. -/
abbrev Draft := Array SlotTable

/-- Adds a child to a slot of a table. -/
def Draft.addTo (draft : Draft) (table : Nat) (slot : String) (entry : SlotEntry) : Draft :=
  draft.modify table (SlotTable.add slot entry)

/-- Adds a token to a slot of a table, if there is one. -/
def Draft.addToken (draft : Draft) (table : Nat) (slot : String) : Option Token → Draft
  | some t => draft.addTo table slot (.token t)
  | none => draft

/-- Adds a node to a slot of a table, with a table of its own that has no children yet. -/
def Draft.openNode (draft : Draft) (table : Nat) (slot name : String) : Draft :=
  (draft.addTo table slot (.node name draft.size)).push []

/-- The element of an entry in a slot, given the children in each table. -/
def SlotEntry.element (children : Array (List Element)) (slot : String) : SlotEntry → Element
  | token t => .token slot t
  | node name table => .node slot name (children[table]?.getD [])

/-- The elements in a table, slot after slot, given the children in each table. -/
def SlotTable.elements (children : Array (List Element)) (table : SlotTable) : List Element :=
  table.flatMap fun (slot, entries) => entries.toList.map (SlotEntry.element children slot)

/-- Fills in the children of the tables before `i`, the last of these tables first. -/
def Draft.fill (draft : Draft) : Nat → Array (List Element) → Array (List Element)
  | 0, children => children
  | i + 1, children =>
      let own := SlotTable.elements children (draft[i]?.getD [])
      draft.fill i (children.setIfInBounds i own)

/-- The children in each table of a draft. -/
def Draft.children (draft : Draft) : Array (List Element) :=
  draft.fill draft.size (Array.replicate draft.size [])

end JavaSurvey
