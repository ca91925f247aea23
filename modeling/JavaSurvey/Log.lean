/-!
# Log

What is told about the work while it goes on. Each event has a level, and those below the level in
force are not shown.
-/

namespace JavaSurvey

/-- How much an event matters. -/
inductive Level where
  | debug
  | warning
  | error
  deriving DecidableEq, Repr

/-- The word for a level. -/
def Level.word : Level → String
  | debug => "DEBUG"
  | warning => "WARNING"
  | error => "ERROR"

/-- The names by which a level can be put in force. -/
inductive LevelName where
  | critical
  | fatal
  | error
  | warn
  | warning
  | info
  | debug
  | notset
  deriving DecidableEq, Repr

namespace LevelName

/-- The word for a name. -/
def word : LevelName → String
  | critical => "CRITICAL"
  | fatal => "FATAL"
  | error => "ERROR"
  | warn => "WARN"
  | warning => "WARNING"
  | info => "INFO"
  | debug => "DEBUG"
  | notset => "NOTSET"

/-- All names. -/
def all : List LevelName :=
  [critical, fatal, error, warn, warning, info, debug, notset]

/-- The name that a word stands for. -/
def ofWord? (w : String) : Option LevelName :=
  all.find? (·.word == w)

/-- The severity from which events are shown. -/
def severity : LevelName → Nat
  | critical => 50
  | fatal => 50
  | error => 40
  | warn => 30
  | warning => 30
  | info => 20
  | debug => 10
  | notset => 0

end LevelName

/-- How severe an event of a level is. -/
def Level.severity : Level → Nat
  | debug => 10
  | warning => 30
  | error => 40

/-- Something that happened, and the part of the program that tells of it. -/
structure Event where
  level : Level
  teller : String
  message : String
  deriving DecidableEq, Repr

/-- The line for an event. -/
def Event.line (e : Event) : String :=
  "[" ++ e.level.word ++ "] " ++ e.teller ++ ": " ++ e.message ++ "\n"

/-- The lines for the events that are shown. -/
def logText (inForce : LevelName) (events : List Event) : String :=
  String.join ((events.filter fun e => inForce.severity ≤ e.level.severity).map Event.line)

end JavaSurvey
