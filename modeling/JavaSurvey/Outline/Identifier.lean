import JavaSurvey.Text.Chars

/-!
# Identifiers

A name starts with an ASCII letter, an underscore or a dollar sign, and goes on with word
characters and dollar signs.
-/

namespace JavaSurvey

/-- Whether a character may start a name. -/
def startsName (c : Char) : Bool :=
  Text.isLetter c || c == '_' || c == '$'

/-- Whether a character may stand in a name. -/
def inName (c : Char) : Bool :=
  Text.isWord c || c == '$'

/-- Whether a text is what may follow the first character of a name. One newline may end it. -/
def continuesName : Text → Bool
  | [] => true
  | ['\n'] => true
  | c :: rest => inName c && continuesName rest

/-- Whether a text is a name. -/
def isIdentifier : Text → Bool
  | [] => false
  | c :: rest => startsName c && continuesName rest

end JavaSurvey
