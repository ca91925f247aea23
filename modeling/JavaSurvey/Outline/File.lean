import JavaSurvey.Outline.Classes
import JavaSurvey.Outline.Fields
import JavaSurvey.Outline.Methods

/-!
# Outline of a file

The package, the classes, the fields and the methods of a whole file.
-/

namespace JavaSurvey

/-- What a file declares, and its method declarations. -/
structure Outline where
  summary : ClassSummary
  methods : List MethodDecl

/-- The outline of a file. The first class gives it its name; `fallback` is the name of a file
without classes. -/
def outline (source : Text) (fallback : String) (root : Node) : Except Failure Outline := do
  let lines := LineIndex.ofText source
  let fields := (root.findAll "field_declaration").flatMap (fieldSummaries source lines)
  let methods ← methodDecls source lines (root.findAll "method_declaration")
  let names := classNames root
  let className := names.head?.getD fallback
  let summary ← ClassSummary.check className (packageName source root) fields
    (methods.map MethodDecl.toMethodSummary) (names.tail.filter (· != className))
  return ⟨summary, methods⟩

/-- The notices of the methods that are passed over. -/
def outlineNotices (root : Node) : List String :=
  (root.findAll "method_declaration").filterMap methodNotice?

end JavaSurvey
