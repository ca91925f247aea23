import JavaSurvey.Text.Numeral

/-!
# Command-line arguments

A command line has options, then the name of a command, then what the command works on. Long
options may be cut short as long as they are clear, and short ones may be joined.

An argument with a hyphen in front is an option, unless it is a negative number, has a blank in
it, or comes after two hyphens that stand alone. Reading goes from left to right: whoever asks for
help gets it when that option is reached, and what is wrong before that, or in the same argument,
is an error.
-/

namespace JavaSurvey

/-- What an option asks for. -/
inductive Flag where
  | help
  | json
  | verbose
  deriving DecidableEq, Repr

/-- How an option is written: one letter, if it has one, and a long word. -/
structure OptionSpelling where
  flag : Flag
  letter : Option Char
  word : String

/-- The options before the command. -/
def mainOptions : List OptionSpelling :=
  [⟨.help, some 'h', "help"⟩, ⟨.json, none, "json"⟩, ⟨.verbose, some 'v', "verbose"⟩]

/-- The options after the command. -/
def commandOptions : List OptionSpelling :=
  [⟨.help, some 'h', "help"⟩]

/-- The flag of a letter. -/
def letterFlag? (options : List OptionSpelling) (c : Char) : Option Flag :=
  (options.find? (·.letter == some c)).map (·.flag)

/-- What an argument is. -/
inductive ArgumentKind where
  | plain
  /-- One option, or several joined ones. -/
  | options (flags : List Flag)
  /-- An option with a value, or joined with a letter that is no option. -/
  | refused
  | unknownOption
  | ambiguous
  deriving Repr

/-- Whether a text is made of decimal digits. -/
def allDigits (t : Text) : Bool :=
  t.all fun c => (Text.digit? c).isSome

/-- Whether what follows a hyphen makes it a negative number. One newline may end it. -/
def isNumberText (t : Text) : Bool :=
  let body := if t.getLast? = some '\n' then t.dropLast else t
  let whole := body.takeWhile (· != '.')
  match body.drop whole.length with
  | [] => !whole.isEmpty && allDigits whole
  | _ :: fraction => allDigits whole && !fraction.isEmpty && allDigits fraction

/-- What an argument is that has a hyphen in front and is no option. -/
def nonOption (rest : Text) : ArgumentKind :=
  if isNumberText rest || rest.contains ' ' then .plain else .unknownOption

/-- What a long option is; no option takes a value. -/
def longKind (flag : Flag) (hasValue : Bool) : ArgumentKind :=
  if hasValue then .refused else .options [flag]

/-- What an option is that starts with the letter `first`. Letters after it are further options,
and an equals sign may stand between the first letter and them. -/
def letterKind (options : List OptionSpelling) (first : Flag) (rest : Text) : ArgumentKind :=
  let more := match rest with
    | '=' :: c :: value => c :: value
    | _ => rest
  match more.mapM (letterFlag? options) with
  | some flags => .options (first :: flags)
  | none => .refused

/-- What an argument is. -/
def argumentKind (options : List OptionSpelling) (argument : String) : ArgumentKind :=
  match argument.toList with
  | '-' :: '-' :: rest =>
      let word := rest.takeWhile (· != '=')
      let hasValue := decide (word.length < rest.length)
      match options.find? (·.word.toList == word) with
      | some o => longKind o.flag hasValue
      | none =>
          match options.filter (word.isPrefixOf ·.word.toList) with
          | [] => nonOption ('-' :: rest)
          | [o] => longKind o.flag hasValue
          | _ => .ambiguous
  | '-' :: c :: rest =>
      match letterFlag? options c with
      | some flag => letterKind options flag rest
      | none => nonOption (c :: rest)
  | _ => .plain

/-- What is wrong with a command line. -/
inductive ArgumentError where
  /-- Help was asked for. -/
  | help
  | usage
  deriving DecidableEq, Repr

/-- What is known while the arguments are read. -/
structure ArgumentState where
  json : Bool := false
  verbose : Bool := false
  /-- Whether an argument was met that has no place. -/
  stray : Bool := false

/-- The state after an option. -/
def ArgumentState.take (st : ArgumentState) : Flag → Except ArgumentError ArgumentState
  | .help => .error .help
  | .json => .ok { st with json := true }
  | .verbose => .ok { st with verbose := true }

/-- The state after some options. -/
def ArgumentState.takeAll (st : ArgumentState) : List Flag → Except ArgumentError ArgumentState
  | [] => .ok st
  | flag :: rest => do
      let st ← st.take flag
      st.takeAll rest

/-- The state after an argument. -/
def ArgumentState.option (st : ArgumentState) : ArgumentKind → Except ArgumentError ArgumentState
  | .plain => .ok st
  | .options flags => st.takeAll flags
  | .refused => .error .usage
  | .unknownOption => .ok { st with stray := true }
  | .ambiguous => .error .usage

/-- A command and what it works on. -/
inductive Command where
  | summary (file : String)
  /-- The line can be left out on purpose; the command then finds that it has none. -/
  | graph (file : String) (line : Option Int) (column : Int)
  | locks (file : String)
  | services (root : String)
  | lifecycle (root : String)
  deriving DecidableEq, Repr

/-- The names of the commands. -/
inductive CommandName where
  | summary
  | graph
  | locks
  | services
  | lifecycle
  deriving DecidableEq, Repr

namespace CommandName

/-- The command of a name. -/
def ofWord? : String → Option CommandName
  | "summary" => some summary
  | "graph" => some graph
  | "locks" => some locks
  | "services" => some services
  | "lifecycle" => some lifecycle
  | _ => none

/-- The number of arguments that a command must have. -/
def required : CommandName → Nat
  | summary => 0
  | graph => 2
  | locks => 0
  | services => 1
  | lifecycle => 1

/-- The number of arguments that a command can have. -/
def allowed : CommandName → Nat
  | summary => 1
  | graph => 3
  | locks => 1
  | services => 1
  | lifecycle => 1

/-- The number that an argument stands for. Two hyphens hold the place of a number that is left
out. -/
def number? (argument : String) : Option (Option Int) :=
  if argument = "--" then some none else (Text.integer? argument.toList).map some

/-- Whether the argument at a place can be what it must be: a line and a column are numbers. -/
def accepts : CommandName → Nat → String → Bool
  | graph, place, argument => place = 0 || (number? argument).isSome
  | _, _, _ => true

/-- The command with its arguments. A file that is not named is the built-in sample, and a column
that is not given is zero. -/
def command? : CommandName → List String → Option Command
  | summary, [] => some (.summary "-")
  | summary, [file] => some (.summary file)
  | locks, [] => some (.locks "-")
  | locks, [file] => some (.locks file)
  | graph, [file, line] => (number? line).map (.graph file · 0)
  | graph, [file, line, column] => do
      let line ← number? line
      let column ← number? column
      return .graph file line (column.getD 0)
  | services, [root] => some (.services root)
  | lifecycle, [root] => some (.lifecycle root)
  | _, _ => none

end CommandName

/-- The arguments of a command that are read so far. A command takes its arguments up to an option
together; once it has those that it must have, it takes no more after an option. -/
structure Given where
  arguments : List String := []
  complete : Bool := false

/-- The arguments after some more that stand together. -/
def Given.add (name : CommandName) (given : Given) (run : List String) :
    Except ArgumentError (Given × Bool) :=
  if given.complete then .ok (given, !run.isEmpty)
  else
    let place := given.arguments.length
    let taken := run.take (name.allowed - place)
    let accepted := (taken.zipIdx place).all fun (argument, i) => name.accepts i argument
    let arguments := given.arguments ++ taken
    if accepted then
      .ok (⟨arguments, name.required ≤ arguments.length⟩, taken.length < run.length)
    else .error .usage

/-- Reads what follows the command. `run` holds the plain arguments since the last option, latest
first. -/
def readCommand (name : CommandName) (st : ArgumentState) (given : Given) (run : List String) :
    List String → Except ArgumentError (ArgumentState × Given)
  | [] => do
      let (given, stray) ← given.add name run.reverse
      return ({ st with stray := st.stray || stray }, given)
  | argument :: rest =>
      if argument = "--" then do
        let (given, stray) ← given.add name (run.reverse ++ rest)
        return ({ st with stray := st.stray || stray }, given)
      else
        match argumentKind commandOptions argument with
        | .plain => readCommand name st given (argument :: run) rest
        | kind => do
            let (given, stray) ←
              if run.isEmpty then .ok (given, false) else given.add name run.reverse
            let st ← { st with stray := st.stray || stray }.option kind
            readCommand name st given [] rest

/-- A command line: what to do and how to show it. -/
structure Invocation where
  json : Bool
  verbose : Bool
  command : Command
  deriving Repr

/-- Reads the options and the command. -/
def readArguments (st : ArgumentState) : List String → Except ArgumentError Invocation
  | [] => .error .usage
  | argument :: rest =>
      if argument = "--" then .error .usage
      else
        match argumentKind mainOptions argument with
        | .plain =>
            match CommandName.ofWord? argument with
            | none => .error .usage
            | some name => do
                let (st, given) ← readCommand name st {} [] rest
                if !given.complete || st.stray then .error .usage
                else
                  match name.command? given.arguments with
                  | some command => .ok ⟨st.json, st.verbose, command⟩
                  | none => .error .usage
        | kind => do
            let st ← st.option kind
            readArguments st rest

/-- The arguments before two hyphens that stand alone. -/
def beforeHyphens (arguments : List String) : List String :=
  arguments.takeWhile (· != "--")

/-- Whether an argument could be several options. -/
def isAmbiguous (argument : String) : Bool :=
  match argumentKind mainOptions argument with
  | .ambiguous => true
  | _ => false

/-- The command line that some arguments stand for. An option that could be several is an error
wherever it stands. -/
def Invocation.ofArguments (arguments : List String) : Except ArgumentError Invocation :=
  if (beforeHyphens arguments).any isAmbiguous then .error .usage
  else readArguments {} arguments

end JavaSurvey
