import JavaSurvey.BootTimeline
import JavaSurvey.Json
import JavaSurvey.Log
import JavaSurvey.Text.Numeral
import JavaSurvey.Text.Upper

/-!
# Settings

The settings of the survey, and how the environment changes them. A variable that is not set
leaves its default; one with an unusable value is a failure.
-/

namespace JavaSurvey

/-- The variables that matter, as far as they are set. -/
structure Environment where
  maxParseBytes : Option String := none
  excludedDirs : Option String := none
  logLevel : Option String := none

/-- The variables that matter among all that are set. -/
def Environment.ofVariables (values : List (String × String)) : Environment where
  maxParseBytes := values.lookup "JAVA_LENS_MAX_PARSE_BYTES"
  excludedDirs := values.lookup "JAVA_LENS_EXCLUDED_DIRS"
  logLevel := values.lookup "JAVA_LENS_LOG_LEVEL"

/-- The size above which a text is not parsed. -/
def defaultMaxParseBytes : Int := 1024 * 1024

/-- The directories that hold what was built. -/
def defaultExcludedDirs : List String :=
  ["out", "build", ".gradle", "node_modules"]

/-- The settings of the survey. -/
structure Settings where
  maxParseBytes : Int
  excludedDirs : List String
  lifecycleTargets : List String
  logLevel : LevelName
  deriving Repr

namespace Settings

/-- The size that a variable sets; an empty one sets none. -/
def byteLimit : Option String → Except Failure Int
  | none => .ok defaultMaxParseBytes
  | some text =>
      if text.isEmpty then .ok defaultMaxParseBytes
      else
        match Text.integer? text.toList with
        | none => .error (.settings (.byteLimitNotInteger text))
        | some n => if 0 < n then .ok n else .error (.settings (.byteLimitNotPositive n))

/-- The directories that a variable lists between commas; an empty one lists none. -/
def directories : Option String → List String
  | none => defaultExcludedDirs
  | some text =>
      if text.isEmpty then defaultExcludedDirs
      else ((text.toList.splitOn ',').filter (· ≠ [])).map String.ofList

/-- The level that a variable names, in upper or lower case. -/
def levelNamed : Option String → Except Failure LevelName
  | none => .ok .warning
  | some text =>
      let name := String.ofList (Text.upper text.toList)
      match LevelName.ofWord? name with
      | some level => .ok level
      | none => .error (.settings (.unknownLogLevel name))

/-- The settings in an environment. -/
def ofEnvironment (env : Environment) : Except Failure Settings := do
  let maxParseBytes ← byteLimit env.maxParseBytes
  let logLevel ← levelNamed env.logLevel
  return ⟨maxParseBytes, directories env.excludedDirs, bootFiles, logLevel⟩

/-- The JSON form of settings. -/
def json (s : Settings) : Json :=
  .object [("max_parse_bytes", .int s.maxParseBytes),
    ("excluded_dirs", .list (s.excludedDirs.map .str)),
    ("lifecycle_targets", .list (s.lifecycleTargets.map .str)),
    ("log_level", .str s.logLevel.word)]

end Settings

end JavaSurvey
