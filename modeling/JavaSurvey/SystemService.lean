import JavaSurvey.CallSite.Scan

/-!
# System services

A class whose header says that it extends `SystemService` is a system service. Its summary tells
where its hooks are declared and which binder services it publishes, by the names of the methods
and calls alone.
-/

namespace JavaSurvey

/-- A published binder service. -/
structure BinderService where
  name : String
  line : Int
  deriving DecidableEq, Repr

/-- The hooks and the published services of a system service. -/
structure SystemService where
  className : String
  onStartLine : Option Int
  onBootPhaseLines : List Int
  binderServices : List BinderService
  deriving DecidableEq, Repr

/-- Whether a text starts with `word`, blanks and `next`, with at least one blank. -/
def startsWithWords (word next t : Text) : Bool :=
  word.isPrefixOf t &&
    let rest := t.drop word.length
    rest.head?.any Text.isBlank && next.isPrefixOf (Text.trimLeft rest)

/-- Whether a class header names `SystemService` right after `extends`. -/
def isServiceHeader (header : Text) : Bool :=
  Text.anyRest (startsWithWords "extends".toList "SystemService".toList) header

/-- The first characters between two double quotes, of which there is at least one. -/
def quotedText? : Text → Option Text
  | [] => none
  | c :: rest =>
      if c = '"' then
        let inner := rest.takeWhile (· != '"')
        if inner ≠ [] ∧ inner.length < rest.length then some inner else quotedText? rest
      else quotedText? rest

/-- The calls that publish a binder service. -/
def publishCalls : List String :=
  ["publishBinderService", "addService"]

/-- The line with a number, where zero and the numbers below it count from the last line, and a
number above that of the last line stands for an empty line. -/
def lineWith (lines : List Text) (number : Int) : Except Failure Text :=
  if number ≤ lines.length then
    match Text.index? lines (number - 1) with
    | some line => .ok line
    | none => .error .outOfRange
  else .ok []

/-- The service that a call publishes: its name is the first quoted text on the line. -/
def publishedService (lines : List Text) (call : CallSite) : Except Failure BinderService :=
  match lineWith lines call.line with
  | .ok line =>
      let name := match quotedText? line with
        | some text => String.ofList text
        | none => "<unknown>"
      .ok ⟨name, call.line⟩
  | .error e => .error e

/-- The services that some calls publish. -/
def publishedServices (lines : List Text) : List CallSite → Except Failure (List BinderService)
  | [] => .ok []
  | call :: rest => do
      let service ← publishedService lines call
      let services ← publishedServices lines rest
      return service :: services

/-- The summary of a class with the given header, if it is a system service. -/
def systemService? (source : Text) (className : String) (header : Option Text)
    (methods : List MethodDecl) (calls : List CallSite) :
    Except Failure (Option SystemService) :=
  if header.any isServiceHeader then do
    let services ← publishedServices (Text.lines source)
      (calls.filter fun call => publishCalls.contains call.name)
    return some {
      className := className
      onStartLine := (methods.find? (·.name == "onStart")).map (·.line)
      onBootPhaseLines := (methods.filter (·.name == "onBootPhase")).map (·.line)
      binderServices := services }
  else .ok none

end JavaSurvey
