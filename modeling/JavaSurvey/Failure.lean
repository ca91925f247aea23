import JavaSurvey.Text.Quoted

/-!
# Failures

Every way in which an operation can fail, as a cause, and the message that describes each.
-/

namespace JavaSurvey

/-- Why a method declaration is refused. -/
inductive MethodFault where
  /-- The declaration ends before it starts. -/
  | reversed (first last : Int)
  /-- Only one end of the body is known. -/
  | halfBody
  /-- The body ends before it starts. -/
  | reversedBody
  deriving DecidableEq, Repr

/-- Why a file cannot be read. -/
inductive FileFault where
  | notFound
  | isDirectory
  | notDirectory
  deriving DecidableEq, Repr

/-- Why the settings are refused. -/
inductive SettingsFault where
  | byteLimitNotInteger (text : String)
  | byteLimitNotPositive (value : Int)
  | unknownLogLevel (name : String)
  deriving DecidableEq, Repr

/-- The cause of a failed operation. -/
inductive Failure where
  /-- The grammar rejects the text near an offset. -/
  | syntaxError (offset : Int)
  /-- An index lies outside the list it was meant for. -/
  | outOfRange
  | method (name : String) (fault : MethodFault)
  /-- A class is listed among its own inner classes. -/
  | repeatedClass (name : String)
  | unsortedTimeline
  | reversedRange (first last : Int)
  | unknownVisibility (text : String)
  | unknownDefinitionKind (text : String)
  | settings (fault : SettingsFault)
  | file (fault : FileFault) (path : String)
  /-- The file of a command has no analysis. -/
  | notAnalyzed (path : String)
  | lineOutside (line : Int) (path : String)
  /-- A command that works on a line was given none. -/
  | lineMissing
  | grammarUnavailable
  deriving DecidableEq, Repr

namespace MethodFault

/-- What is wrong with the declaration. -/
def message : MethodFault → String
  | reversed first last => s!"start {first} > end {last}"
  | halfBody => "body offsets must both be set or both be absent"
  | reversedBody => "body start > body end"

end MethodFault

namespace FileFault

/-- The system's number and wording of the fault. -/
def message : FileFault → String
  | notFound => "[Errno 2] No such file or directory"
  | isDirectory => "[Errno 21] Is a directory"
  | notDirectory => "[Errno 20] Not a directory"

end FileFault

namespace SettingsFault

/-- Which variable is wrong, and why. -/
def message : SettingsFault → String
  | byteLimitNotInteger text =>
      "JAVA_LENS_MAX_PARSE_BYTES must be an integer, got " ++ Text.quotedString text
  | byteLimitNotPositive value =>
      s!"JAVA_LENS_MAX_PARSE_BYTES must be positive, got {value}"
  | unknownLogLevel name =>
      "JAVA_LENS_LOG_LEVEL is not a logging level: " ++ Text.quotedString name

end SettingsFault

namespace Failure

/-- The description of a failure. -/
def message : Failure → String
  | syntaxError offset => s!"syntax error near offset {offset}"
  | outOfRange => "index out of range"
  | method name fault => "method " ++ name ++ ": " ++ fault.message
  | repeatedClass name => "inner classes must not repeat the primary class " ++ name
  | unsortedTimeline => "lifecycle entries must be sorted by line"
  | reversedRange first last => s!"invalid range: {first} > {last}"
  | unknownVisibility text => Text.quotedString text ++ " is not a valid Visibility"
  | unknownDefinitionKind text => Text.quotedString text ++ " is not a valid DefinitionKind"
  | settings fault => fault.message
  | file fault path => fault.message ++ ": " ++ Text.quotedString path
  | notAnalyzed path => "could not analyze " ++ path
  | lineOutside line path => s!"line {line} is outside {path}"
  | lineMissing => "no line was given"
  | grammarUnavailable =>
      "Could not load Java grammar.\n- Install it with: pip install tree-sitter-java"

/-- Whether the failure is one of those that end a command with an error line: an operation of the
survey itself was refused, or a file could not be read. -/
def isReported : Failure → Bool
  | syntaxError _ | settings _ | file _ _ | notAnalyzed _ | lineOutside _ _
  | grammarUnavailable => true
  | _ => false

end Failure

end JavaSurvey
