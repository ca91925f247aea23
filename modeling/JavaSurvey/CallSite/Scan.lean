import JavaSurvey.CallSite.Arguments
import JavaSurvey.CallSite.Parentheses
import JavaSurvey.Declaration
import JavaSurvey.Outline.Identifier
import JavaSurvey.Text.LineIndex

/-!
# Call sites

A call site is a name followed by parentheses. It is found in the text, so nothing is known of
what the name stands for; the keywords that may stand before a parenthesis are left out.

* `callAt?` recognises a call at the start of a text;
* `scanCalls` finds all call sites of a text;
* `callSites` finds those of the bodies of some methods, each once.
-/

namespace JavaSurvey

/-- A call found in the text. -/
structure CallSite where
  name : String
  arguments : Int
  offset : Int
  line : Int
  deriving DecidableEq, Repr

/-- The keywords that may stand before a parenthesis without being a call. -/
def callKeywords : List String :=
  ["if", "for", "while", "switch", "catch", "synchronized", "new", "return", "throw", "try",
    "else", "do", "case", "super", "this", "assert"]

/-- The name and the argument text of the call at the start of a text. -/
def callAt? : Text → Option (String × Text)
  | [] => none
  | c :: rest =>
      if startsName c then
        let name := String.ofList (c :: rest.takeWhile inName)
        let after := (rest.dropWhile inName).dropWhile Text.isBlank
        if after.head? = some '(' ∧ name ∉ callKeywords then
          (closing? after).map fun close => (name, (after.take close).drop 1)
        else none
      else none

/-- The call sites of a text that stands at `offset`; `joined` says that the character before it
belongs to a name. -/
def scanFrom (lines : LineIndex) (offset : Int) (joined : Bool) : Text → List CallSite
  | [] => []
  | c :: rest =>
      let later := scanFrom lines (offset + 1) (inName c) rest
      match if joined then none else callAt? (c :: rest) with
      | some (name, arguments) =>
          ⟨name, countArguments arguments, offset, lines.lineOf offset⟩ :: later
      | none => later

/-- The call sites of a text that stands at offset `base` of its file. -/
def scanCalls (lines : LineIndex) (base : Int) (t : Text) : List CallSite :=
  scanFrom lines base false t

/-- The call sites in the body of a method. -/
def bodyCalls (source : Text) (lines : LineIndex) (m : MethodDecl) : List CallSite :=
  match m.body with
  | some body => scanCalls lines body.start (Text.slice source body.start body.stop)
  | none => []

/-- Call sites after others, without those at an offset that is taken. -/
def addNew (known new : List CallSite) : List CallSite :=
  new.foldl (fun sites s => if sites.any (·.offset == s.offset) then sites else sites ++ [s]) known

/-- The call sites in the bodies of some methods. A site inside a method that stands inside
another is found in both bodies and listed once, where it is found first. -/
def callSites (source : Text) (lines : LineIndex) (methods : List MethodDecl) : List CallSite :=
  methods.foldl (fun sites m => addNew sites (bodyCalls source lines m)) []

end JavaSurvey
