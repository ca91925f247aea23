/-!
# Concrete syntax trees

The tree that a grammar makes of a source: every node has its kind, the field it fills in its
parent, and the bytes it spans. A grammar makes a tree of any source, and marks as errors or as
missing the parts that it could not read.

`Concrete.firstFaultByte` finds the first marked part, and enters only subtrees that say they hold
one.
-/

namespace JavaSurvey

/-- What a concrete node says of itself. -/
structure Label where
  kind : String
  field : Option String := none
  startByte : Int
  endByte : Int
  isError : Bool := false
  isMissing : Bool := false
  /-- Whether the node or a node below it is an error or missing. -/
  hasError : Bool := false
  deriving DecidableEq, Repr, Inhabited

/-- A concrete syntax tree. -/
inductive Concrete where
  | mk (label : Label) (children : List Concrete)
  deriving Repr, Inhabited

namespace Concrete

/-- What the root says of itself. -/
def label : Concrete → Label
  | mk l _ => l

/-- The trees below the root. -/
def children : Concrete → List Concrete
  | mk _ cs => cs

/-- The slot that a node fills: its field if it has a name, and else its kind. -/
def slot (c : Concrete) : String :=
  match c.label.field with
  | some field => if field.isEmpty then c.label.kind else field
  | none => c.label.kind

/-- Whether the grammar could not read the root itself. -/
def isFault (c : Concrete) : Bool :=
  c.label.isError || c.label.isMissing

mutual

/-- The number of nodes. -/
def size : Concrete → Nat
  | mk _ cs => sizeAll cs + 1

/-- The number of nodes of several trees. -/
def sizeAll : List Concrete → Nat
  | [] => 0
  | c :: rest => size c + sizeAll rest

end

theorem size_eq (c : Concrete) : size c = sizeAll c.children + 1 := by
  cases c
  simp [size, children]

@[simp] theorem sizeAll_append (xs ys : List Concrete) :
    sizeAll (xs ++ ys) = sizeAll xs + sizeAll ys := by
  induction xs with
  | nil => simp [sizeAll]
  | cons x xs ih => simp [sizeAll, ih, Nat.add_assoc]

mutual

/-- The nodes of a tree, each before those below it. -/
def preorder : Concrete → List Concrete
  | mk l cs => mk l cs :: preorderAll cs

/-- The nodes of several trees, one tree after the other. -/
def preorderAll : List Concrete → List Concrete
  | [] => []
  | c :: rest => preorder c ++ preorderAll rest

end

/-- The first fault on a stack of trees. Only what says that it holds a fault is entered. -/
def findFault : List Concrete → Option Concrete
  | [] => none
  | c :: rest =>
      if c.isFault then some c
      else if c.label.hasError then findFault (c.children ++ rest)
      else findFault rest
termination_by stack => sizeAll stack
decreasing_by
  · simp [sizeAll, size_eq]
  · simp [sizeAll, size_eq]

/-- The byte at which the first fault of a tree starts, or the tree itself when it has none. -/
def firstFaultByte (root : Concrete) : Int :=
  match findFault [root] with
  | some c => c.label.startByte
  | none => root.label.startByte

end Concrete

/-- A grammar makes a concrete tree of every source. -/
abbrev Grammar := List Char → Concrete

end JavaSurvey
