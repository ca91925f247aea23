import JavaSurvey.Outline.Modifiers
import JavaSurvey.Text.LineIndex

/-!
# Fields

Every variable of a field declaration is a field of its own, and all of them share the modifiers
and the type.
-/

namespace JavaSurvey

/-- The nodes that hold a type, in the order in which they are tried. -/
def typeNodeNames : List String :=
  ["generic_type", "array_type", "scoped_type_identifier", "integral_type", "floating_point_type",
    "boolean_type"]

/-- The type of a field declaration, as it stands in the source. -/
def declaredType (source : Text) (field : Node) : Text :=
  if (field.inSlot "type").isEmpty then
    match typeNodeNames.findSome? field.find? with
    | some n => spannedText source n.tokens
    | none => []
  else spannedText source (field.slotTokens "type")

/-- The variables of a field declaration. -/
def fieldVariables (field : Node) : List Token :=
  (field.inSlot "declarator").filterMap fun e =>
    match e.node? with
    | some n => if n.name = "variable_declarator" then (n.slotTokens "name").head? else none
    | none => none

/-- The fields of a field declaration. -/
def fieldSummaries (source : Text) (lines : LineIndex) (field : Node) : List FieldSummary :=
  let modifiers := field.modifiers
  let type := String.ofList (declaredType source field)
  (fieldVariables field).map fun name => {
    name := name.image
    type := type
    visibility := visibilityOf modifiers
    isStatic := hasStatic modifiers
    line := lines.lineOf name.start }

end JavaSurvey
