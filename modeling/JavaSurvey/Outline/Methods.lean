import JavaSurvey.Outline.Identifier
import JavaSurvey.Outline.Modifiers
import JavaSurvey.Text.LineIndex

/-!
# Methods

A method declaration is taken over when it has a name and a list of parameters. The others are
passed over with a notice.
-/

namespace JavaSurvey

/-- The nodes that are a parameter. -/
def parameterNodeNames : List String :=
  ["formal_parameter", "spread_parameter", "receiver_parameter"]

/-- The number of parameters. -/
def parameterCount (parameters : Node) : Nat :=
  (parameterNodeNames.flatMap parameters.findAll).length

/-- The tokens between the parentheses of a parameter list, in the order of the source. -/
def innerTokens (parameters : Node) : List Token :=
  let tokens := sourceOrder parameters.tokens
  let tokens := if tokens.head?.any (·.image == "(") then tokens.tail else tokens
  if tokens.getLast?.any (·.image == ")") then tokens.dropLast else tokens

/-- The text between the parentheses of a parameter list. -/
def parameterText (source : Text) (parameters : Node) : Text :=
  spannedText source (innerTokens parameters)

/-- What a passed-over method lacks. -/
inductive Lacking where
  | declarator
  | name
  deriving DecidableEq, Repr

/-- The name token and the parameters of a method. The name is the first identifier, in the order
of the source, of the name slot and the parameters. -/
def declarator (method : Node) : Except Lacking (Token × Node) :=
  let parameters := (method.inSlot "parameters").findSome? Element.node?
  if (method.inSlot "name").isEmpty then .error .declarator
  else
    match parameters with
    | none => .error .declarator
    | some parameters =>
        let tokens := sourceOrder (method.slotTokens "name" ++ parameters.tokens)
        match tokens.find? fun t => isIdentifier t.image.toList with
        | some name => .ok (name, parameters)
        | none => .error .name

/-- The range of the body of a method, which is a block. -/
def bodyRange? (method : Node) : Option (Int × Int) :=
  match (method.inSlot "body").findSome? fun e => e.node?.filter (·.name == "block") with
  | some body => body.range?
  | none => none

/-- The result type, if there is one, the name and the parameters. -/
def signatureOf (source : Text) (method : Node) (name : Token) (parameters : Node) : String :=
  let result := spannedText source (method.slotTokens "type")
  let call := name.image ++ "(" ++ String.ofList (parameterText source parameters) ++ ")"
  if result.isEmpty then call else String.ofList result ++ " " ++ call

/-- The declaration of a method node, if it is taken over. -/
def methodDecl? (source : Text) (lines : LineIndex) (method : Node) :
    Except Failure (Option MethodDecl) :=
  match declarator method, method.range? with
  | .ok (name, parameters), some (start, stop) =>
      let modifiers := method.modifiers
      let body := bodyRange? method
      let summary : MethodSummary := {
        name := name.image
        arity := parameterCount parameters
        visibility := visibilityOf modifiers
        isStatic := hasStatic modifiers
        line := lines.lineOf name.start }
      let signature := signatureOf source method name parameters
      (MethodDecl.check summary signature start stop (body.map (·.1)) (body.map (·.2))).map some
  | _, _ => .ok none

/-- The declarations of some method nodes. -/
def methodDecls (source : Text) (lines : LineIndex) : List Node → Except Failure (List MethodDecl)
  | [] => .ok []
  | method :: rest => do
      let decl ← methodDecl? source lines method
      let decls ← methodDecls source lines rest
      return decl.toList ++ decls

/-- What is said of a method that is passed over. -/
def methodNotice? (method : Node) : Option String :=
  match declarator method with
  | .ok _ => none
  | .error .declarator => some ("Skipping " ++ method.name ++ " without a declarator")
  | .error .name => some ("Skipping " ++ method.name ++ " without a method name")

end JavaSurvey
