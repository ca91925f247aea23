import JavaSurvey.Declaration
import JavaSurvey.Syntax.Walk

/-!
# Modifiers

The keywords of a declaration's own modifiers. What stands inside an annotation is no modifier.
-/

namespace JavaSurvey

/-- The access keywords and their visibilities. -/
def accessWord? : String → Option Visibility
  | "public" => some .public
  | "private" => some .private
  | "protected" => some .protected
  | _ => none

/-- The first access keyword in the order of the source. -/
def visibilityOf (tokens : List Token) : Visibility :=
  ((sourceOrder tokens).findSome? fun t => accessWord? t.image).getD .package

/-- Whether `static` is among some keywords. -/
def hasStatic (tokens : List Token) : Bool :=
  tokens.any (·.image == "static")

/-- The keywords of a declaration's modifiers. -/
def Node.modifiers (n : Node) : List Token :=
  (n.inSlot "modifiers").flatMap fun e =>
    match e.node? with
    | some m => m.children.filterMap Element.token?
    | none => []

end JavaSurvey
