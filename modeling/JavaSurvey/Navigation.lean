import JavaSurvey.Failure
import JavaSurvey.Text.Chars

/-!
# Navigation

What the cursor on a line asks for, and where it may be defined: the name of a binder service in
the service contexts, the name of a system daemon in the init files, or a native method in the
native sources.
-/

namespace JavaSurvey

/-- Where a definition is looked for. -/
inductive DefinitionKind where
  | serviceContext
  | initService
  | jniMethod
  deriving DecidableEq, Repr

namespace DefinitionKind

/-- The word for a kind of definition. -/
def word : DefinitionKind → String
  | serviceContext => "service_context"
  | initService => "init_service"
  | jniMethod => "jni_method"

/-- The kind of definition that a word stands for. -/
def check : String → Except Failure DefinitionKind
  | "service_context" => .ok serviceContext
  | "init_service" => .ok initService
  | "jni_method" => .ok jniMethod
  | word => .error (.unknownDefinitionKind word)

end DefinitionKind

/-- A symbol whose definition is asked for. -/
structure DefinitionTarget where
  kind : DefinitionKind
  symbol : String
  deriving DecidableEq, Repr

/-- A place in a text, with line and character counted from zero. -/
structure Location where
  line : Nat
  character : Nat
  deriving DecidableEq, Repr

/-- The text between two double quotes, with the offsets after the first and of the second. -/
structure StringLiteral where
  text : String
  first : Nat
  last : Nat
  deriving DecidableEq, Repr

/-- The text between the last double quote up to the cursor and the next one, if the cursor is not
past that. -/
def stringLiteralAt? (line : Text) (cursor : Int) : Option StringLiteral :=
  if cursor < 0 then none
  else
    match Text.findLast? (· == '"') (line.take (cursor.toNat + 1)) with
    | none => none
    | some quote =>
        let inner := (line.drop (quote + 1)).takeWhile (· != '"')
        let close := quote + 1 + inner.length
        if close < line.length ∧ cursor ≤ close then
          some ⟨String.ofList inner, quote + 1, close⟩
        else none

/-- Whether a character belongs to a word of a line. -/
def inLineWord (c : Char) : Bool :=
  Text.isLetter c || c.isDigit || c == '_'

/-- The first word that holds the cursor or ends at it, in a text that stands at `offset`;
`joined` says that the character before the text belongs to a word. -/
def wordFrom (cursor : Int) (offset : Nat) (joined : Bool) : Text → Option Text
  | [] => none
  | c :: rest =>
      if !joined ∧ inLineWord c ∧ offset ≤ cursor then
        let word := c :: rest.takeWhile inLineWord
        if cursor ≤ offset + word.length then some word
        else wordFrom cursor (offset + 1) true rest
      else wordFrom cursor (offset + 1) (inLineWord c) rest

/-- The first word of a line that holds the cursor or ends at it. -/
def wordAt? (line : Text) (cursor : Int) : Option String :=
  (wordFrom cursor 0 false line).map String.ofList

/-- Whether `native` is a word of a text; `joined` says that the character before the text is a
word character. -/
def hasNative (joined : Bool) : Text → Bool
  | [] => false
  | c :: rest =>
      let word := "native".toList
      (!joined && word.isPrefixOf (c :: rest) &&
          !((c :: rest).drop word.length).head?.any Text.isWord) ||
        hasNative (Text.isWord c) rest

/-- What the cursor on a line asks for. -/
def definitionTarget? (line : Text) (cursor : Int) : Option DefinitionTarget :=
  let mentions (word : String) := Text.occursIn word.toList line
  let inLiteral := match stringLiteralAt? line cursor with
    | some literal =>
        if mentions "publishBinderService" || mentions "addService" then
          some ⟨.serviceContext, literal.text⟩
        else if mentions "start" || mentions "init" then some ⟨.initService, literal.text⟩
        else none
    | none => none
  match inLiteral with
  | some target => some target
  | none =>
      if hasNative false line then (wordAt? line cursor).map (⟨.jniMethod, ·⟩) else none

/-- The first line that satisfies `p` and holds a name, with the name's place in it. -/
def findInLines (p : Text → Bool) (name : Text) (number : Nat) : List Text → Option Location
  | [] => none
  | line :: rest =>
      match if p line then Text.find? name line else none with
      | some character => some ⟨number, character⟩
      | none => findInLines p name (number + 1) rest

/-- The first line of a service contexts file that mentions a service. -/
def findInServiceContexts (service t : Text) : Option Location :=
  findInLines (fun _ => true) service 0 (Text.lines t)

/-- The first line of an init file that starts with `service` and mentions a service. -/
def findInitService (service t : Text) : Option Location :=
  findInLines (fun line => "service ".toList.isPrefixOf line) service 0 (Text.lines t)

/-- The first occurrence of a text in another. -/
def findText (pattern t : Text) : Option Location :=
  (Text.find? pattern t).map fun i =>
    let before := t.take i
    ⟨before.count '\n', (before.reverse.takeWhile (· != '\n')).length⟩

/-- Looks for the definition of a target in the text of a file. -/
def DefinitionTarget.findIn (target : DefinitionTarget) (t : Text) : Option Location :=
  match target.kind with
  | .serviceContext => findInServiceContexts target.symbol.toList t
  | .initService => findInitService target.symbol.toList t
  | .jniMethod => findText target.symbol.toList t

end JavaSurvey
