import JavaSurvey.CommandLine.Arguments
import JavaSurvey.CommandLine.Sample
import JavaSurvey.Export
import JavaSurvey.Report
import JavaSurvey.Scan
import JavaSurvey.Settings
import JavaSurvey.Syntax.Loading

/-!
# Running a command line

The commands, what they print, and how they end.
-/

namespace JavaSurvey

/-- What a command prints, and the code it ends with. -/
structure Printed where
  code : Int := 0
  out : String := ""
  err : String := ""
  deriving Repr

/-- How a command line ends. -/
inductive Ending where
  /-- The arguments were wrong, or help was asked for. -/
  | usage (code : Int)
  | done (printed : Printed)
  deriving Repr

/-- A command at work. -/
structure CommandRun where
  scanner : Scanner
  settings : Settings
  json : Bool

namespace CommandRun

/-- Prints a JSON value or a report. -/
def print (run : CommandRun) (json : Json) (report : String) : Printed :=
  { out := if run.json then json.render ++ "\n" else report }

/-- The document of a file, where `-` stands for the sample. -/
def document (run : CommandRun) (file : String) : Except Failure Document :=
  if file = "-" then .ok sampleDocument
  else run.scanner.workspace.readDocument (Path.ofString file)

/-- The document of a file and its analysis, which must be had. -/
def analysis (run : CommandRun) (file : String) (s : Session) :
    Answer (Document × FileAnalysis) :=
  match run.document file with
  | .error e => (.error e, s)
  | .ok d =>
      match request run.scanner.grammar run.scanner.cancel d s with
      | (.error e, s) => (.error e, s)
      | (.ok none, s) => (.error (.notAnalyzed file), s)
      | (.ok (some a), s) => (.ok (d, a), s)

/-- The summary of a file. -/
def summary (run : CommandRun) (file : String) (s : Session) : Answer Printed :=
  match run.analysis file s with
  | (.error e, s) => (.error e, s)
  | (.ok (_, a), s) => (.ok (run.print a.json a.report), s)

/-- The offset of a line and a column. -/
def offsetAt? (lines : LineIndex) (line column : Int) : Option Int :=
  if 1 ≤ line ∧ line ≤ lines.size then lines[(line - 1).toNat]?.map (· + column) else none

/-- The callers and callees of the method at a line and a column of an analysed document. -/
def graphAt (run : CommandRun) (file : String) (d : Document) (a : FileAnalysis)
    (line column : Int) : Except Failure Printed :=
  match offsetAt? (LineIndex.ofText d.text) line column with
  | none => .error (.lineOutside line file)
  | some offset =>
      match a.callGraph? d.fileName offset with
      | some g => .ok (run.print g.json g.report)
      | none => .ok { code := 1, err := s!"No method at line {line}\n" }

/-- The callers and callees of the method at a line and a column of a file. That there is no line
shows only once the file is analysed. -/
def graph (run : CommandRun) (file : String) (line : Option Int) (column : Int) (s : Session) :
    Answer Printed :=
  match run.analysis file s with
  | (.error e, s) => (.error e, s)
  | (.ok (d, a), s) =>
      match line with
      | none => (.error .lineMissing, s)
      | some line => (run.graphAt file d a line column, s)

/-- The lock hazards of a file. -/
def locks (run : CommandRun) (file : String) (s : Session) : Answer Printed :=
  let text := if file = "-" then .ok sampleText.toList
    else run.scanner.workspace.readText (Path.ofString file)
  match text.bind lockWarnings with
  | .error e => (.error e, s)
  | .ok warnings =>
      (.ok (run.print (Json.listOf LockWarning.json warnings) (reportWarnings warnings)), s)

/-- The system services below a directory. -/
def services (run : CommandRun) (root : String) (s : Session) : Answer Printed :=
  match run.scanner.services (Path.ofString root) run.settings.excludedDirs s with
  | (.error e, s) => (.error e, s)
  | (.ok found, s) =>
      let report := if found.isEmpty then "No SystemService classes found\n"
        else String.join (found.map SystemService.report)
      (.ok (run.print (Json.listOf SystemService.json found) report), s)

/-- The boot timelines below a directory. -/
def lifecycle (run : CommandRun) (root : String) (s : Session) : Answer Printed :=
  let settings := run.settings
  match run.scanner.timelines (Path.ofString root) settings.lifecycleTargets
      settings.excludedDirs s with
  | (.error e, s) => (.error e, s)
  | (.ok found, s) =>
      let report := String.join (found.map BootTimeline.report)
      (.ok (run.print (Json.listOf BootTimeline.json found) report), s)

/-- Runs a command. -/
def perform (run : CommandRun) : Command → Session → Answer Printed
  | .summary file => run.summary file
  | .graph file line column => run.graph file line column
  | .locks file => run.locks file
  | .services root => run.services root
  | .lifecycle root => run.lifecycle root

end CommandRun

/-- The line for a failure that ends a command. -/
def errorEvent (e : Failure) : Event :=
  ⟨.error, "java_lens.main", e.message⟩

/-- Runs a command with a new cache. A failure of the survey or of the file system is told and
ends the command with code one; any other is handed on. -/
def runCommand (run : CommandRun) (inForce : LevelName) (command : Command) :
    Except Failure Printed × Session :=
  match run.perform command { cache := { limit := run.settings.maxParseBytes } } with
  | (.ok printed, s) =>
      (.ok { printed with err := logText inForce s.events ++ printed.err }, s)
  | (.error e, s) =>
      if e.isReported then
        (.ok { code := 1, err := logText inForce (s.events ++ [errorEvent e]) }, s)
      else (.error e, s)

/-- How a command line ends, and how often it parsed. Without a grammar no command can run. -/
def runCommandLine (package? : Option Grammar) (w : Workspace) (env : Environment)
    (arguments : List String) : Except Failure Ending × Nat :=
  match Invocation.ofArguments arguments with
  | .error .help => (.ok (.usage 0), 0)
  | .error .usage => (.ok (.usage 2), 0)
  | .ok invocation =>
      match Settings.ofEnvironment env with
      | .error e => (.ok (.done { code := 1, err := (errorEvent e).line }), 0)
      | .ok settings =>
          match (GrammarLoader.load package? {}).1 with
          | .error e => (.error e, 0)
          | .ok grammar =>
              let run : CommandRun := ⟨{ grammar := grammar, workspace := w }, settings,
                invocation.json⟩
              let inForce := if invocation.verbose then .debug else settings.logLevel
              let (result, s) := runCommand run inForce invocation.command
              (result.map .done, s.parses)

end JavaSurvey
