import JavaSurvey.Path

/-!
# Documents

A document is a text with its address, the language it is written in and, if it is known, the name
of its file.
-/

namespace JavaSurvey

/-- A text that can be analysed. -/
structure Document where
  uri : String
  text : Text
  languageId : String := "java"
  fileName : String := ""
  deriving DecidableEq, Repr

namespace Document

/-- Whether a document is written in Java. -/
def isJava (d : Document) : Bool :=
  d.languageId == "java"

/-- A file name without `.java` at its end. -/
def withoutExtension (name : String) : String :=
  let extension := ".java".toList
  if extension.isSuffixOf name.toList then
    String.ofList (name.toList.take (name.length - extension.length))
  else name

/-- The name of the class of a document in which none is declared. -/
def fallback (d : Document) : String :=
  withoutExtension (JavaSurvey.fileName (if d.fileName.isEmpty then d.uri else d.fileName))

/-- The number of bytes of a document. -/
def size (d : Document) : Nat :=
  Text.utf8Size d.text

end Document

end JavaSurvey
