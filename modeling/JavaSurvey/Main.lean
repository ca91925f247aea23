import JavaSurvey.CommandLine.Run

/-!
# The program

The command line as a program. The Java grammar is a component of its own that is not linked into
this program, so every well-formed command ends with the notice that it could not be loaded.
-/

namespace JavaSurvey

/-- The variables that matter, as the system has them. -/
def systemEnvironment : IO Environment := do
  return {
    maxParseBytes := ← IO.getEnv "JAVA_LENS_MAX_PARSE_BYTES"
    excludedDirs := ← IO.getEnv "JAVA_LENS_EXCLUDED_DIRS"
    logLevel := ← IO.getEnv "JAVA_LENS_LOG_LEVEL" }

end JavaSurvey

/-- Runs the command line, prints what it has to say and ends with its code. -/
def main (arguments : List String) : IO UInt32 := do
  let env ← JavaSurvey.systemEnvironment
  match (JavaSurvey.runCommandLine none (JavaSurvey.Workspace.empty []) env arguments).1 with
  | .ok (.usage code) => return code.toNat.toUInt32
  | .ok (.done printed) =>
      IO.print printed.out
      IO.eprint printed.err
      return printed.code.toNat.toUInt32
  | .error e =>
      IO.eprintln e.message
      return 1
