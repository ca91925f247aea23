import JavaSurvey.Outline.Identifier
import JavaSurvey.Syntax.Walk

/-!
# Classes and package

The class declarations of a file and the package it belongs to.
-/

namespace JavaSurvey

/-- The name of a class declaration: the first token of its name slot that is an identifier. -/
def Node.className? (n : Node) : Option String :=
  ((n.slotTokens "name").find? fun t => isIdentifier t.image.toList).map Token.image

/-- The first class declaration of a file. -/
def primaryClass? (root : Node) : Option Node :=
  root.find? "class_declaration"

/-- The source text of a class declaration without its body. -/
def classHeader (source : Text) (n : Node) : Text :=
  spannedText source (tokensOf (n.children.filter (·.slot != "body")))

/-- The names of the class declarations of a file. -/
def classNames (root : Node) : List String :=
  (root.findAll "class_declaration").filterMap Node.className?

/-- A package declaration without its keyword and the blanks after it. -/
def dropPackageWord (t : Text) : Text :=
  let word := "package".toList
  if word.isPrefixOf t then
    let rest := t.drop word.length
    if rest.head?.any Text.isBlank then Text.trimLeft rest else t
  else t

/-- A text without a semicolon at its end. -/
def dropSemicolon (t : Text) : Text :=
  match (Text.trimRight t).reverse with
  | ';' :: rest => rest.reverse
  | _ => t

/-- The package of a file, empty when none is declared. -/
def packageName (source : Text) (root : Node) : String :=
  match root.find? "package_declaration" with
  | some n =>
      String.ofList (Text.trim (dropSemicolon (dropPackageWord (spannedText source n.tokens))))
  | none => ""

end JavaSurvey
