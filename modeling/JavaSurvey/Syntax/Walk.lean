import JavaSurvey.Order
import JavaSurvey.Syntax.Tree
import JavaSurvey.Text.Chars

/-!
# Walking a syntax tree

Collecting tokens and finding nodes by name. Nesting is unbounded, so each walk keeps a stack of
what it still has to visit and runs in constant call depth.

* `tokensOf` collects the tokens of some children, in slot order;
* `Node.find?` and `Node.findAll` look for nodes by name, each node before those below it;
* `spannedText` and `Node.range?` give the source text and the range that tokens cover.
-/

namespace JavaSurvey

/-- The tokens of a stack of elements, after those collected already, latest first. -/
def collectTokens : List Element → List Token → List Token
  | [], found => found.reverse
  | .token _ t :: rest, found => collectTokens rest (t :: found)
  | .node _ _ children :: rest, found => collectTokens (children ++ rest) found
termination_by stack => Element.sizeAll stack
decreasing_by
  all_goals simp [Element.sizeAll, Element.size]

/-- The tokens of some children, in slot order. -/
def tokensOf (children : List Element) : List Token :=
  collectTokens children []

/-- The first node of a name on a stack of nodes, each visited before those below it. -/
def findNode (name : String) : List Node → Option Node
  | [] => none
  | n :: rest => if n.name = name then some n else findNode name (n.childNodes ++ rest)
termination_by stack => Node.sizeAll stack
decreasing_by
  have := Node.sizeAll_filterMap_le n.children
  simp [Node.sizeAll, Node.size, Node.childNodes]
  omega

/-- The nodes of a name on a stack of nodes, after those found already, latest first. -/
def collectNodes (name : String) : List Node → List Node → List Node
  | [], found => found.reverse
  | n :: rest, found =>
      collectNodes name (n.childNodes ++ rest) (if n.name = name then n :: found else found)
termination_by stack => Node.sizeAll stack
decreasing_by
  have := Node.sizeAll_filterMap_le n.children
  simp [Node.sizeAll, Node.size, Node.childNodes]
  omega

/-- Tokens in the order of the source. -/
def sourceOrder (tokens : List Token) : List Token :=
  sortByKey Token.start tokens

/-- The source from the first token to the end of the one that starts last, without blanks around
it. -/
def spannedText (source : Text) (tokens : List Token) : Text :=
  let ordered := sourceOrder tokens
  match ordered.head?, ordered.getLast? with
  | some first, some final => Text.trim (Text.slice source first.start (final.last + 1))
  | _, _ => []

/-- The least element of a list that starts with `x`. -/
def leastFrom (x : Int) (xs : List Int) : Int :=
  xs.foldl min x

/-- The greatest element of a list that starts with `x`. -/
def greatestFrom (x : Int) (xs : List Int) : Int :=
  xs.foldl max x

/-- The range that tokens cover: the least start, and the offset after the greatest end. -/
def rangeOf? : List Token → Option (Int × Int)
  | [] => none
  | t :: rest =>
      some (leastFrom t.start (rest.map Token.start), greatestFrom t.last (rest.map Token.last) + 1)

namespace Node

/-- The first node of a name in a tree. -/
def find? (n : Node) (name : String) : Option Node :=
  findNode name [n]

/-- The nodes of a name in a tree. -/
def findAll (n : Node) (name : String) : List Node :=
  collectNodes name [n] []

/-- The tokens of a tree, in slot order. -/
def tokens (n : Node) : List Token :=
  tokensOf n.children

/-- The tokens of a slot. -/
def slotTokens (n : Node) (slot : String) : List Token :=
  tokensOf (n.inSlot slot)

/-- The range that the tokens of a tree cover. -/
def range? (n : Node) : Option (Int × Int) :=
  rangeOf? n.tokens

end Node

end JavaSurvey
