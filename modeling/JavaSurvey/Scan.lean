import JavaSurvey.BootTimeline
import JavaSurvey.Navigation
import JavaSurvey.Session
import JavaSurvey.Workspace.Listing

/-!
# Scans

Scans of all files below a directory: for system services, for boot timelines, and for the
definition of a symbol. Before every file a scan asks whether to stop, and then gives what it has.
-/

namespace JavaSurvey

/-- Where a scan works: the grammar, the files, and when to stop. -/
structure Scanner where
  grammar : Grammar
  workspace : Workspace
  cancel : Cancel := Cancel.never

namespace Scanner

/-- What is gathered from the analyses of some files, one after the other. -/
def gather {α : Type} (sc : Scanner) (pick : Path → FileAnalysis → Except Failure (List α)) :
    List Path → Session → Answer (List α)
  | [], s => (.ok [], s)
  | p :: rest, s =>
      if s.isStopped sc.cancel then (.ok [], s.asked)
      else
        match requestPath sc.grammar sc.workspace sc.cancel p s.asked with
        | (.error e, s) => (.error e, s)
        | (.ok none, s) => sc.gather pick rest s
        | (.ok (some a), s) =>
            match pick p a with
            | .error e => (.error e, s)
            | .ok here =>
                match sc.gather pick rest s with
                | (.ok later, s) => (.ok (here ++ later), s)
                | (.error e, s) => (.error e, s)

/-- The system services below a directory. -/
def services (sc : Scanner) (root : Path) (excluded : List String) (s : Session) :
    Answer (List SystemService) :=
  sc.gather (fun _ a => .ok a.service.toList)
    (sc.workspace.filesMatching root "*.java" excluded) s

/-- The files below a directory that match one of some patterns, pattern by pattern. -/
def targetFiles (sc : Scanner) (root : Path) (targets excluded : List String) : List Path :=
  targets.flatMap fun target => sc.workspace.filesMatching root target excluded

/-- The boot timelines below a directory. -/
def timelines (sc : Scanner) (root : Path) (targets excluded : List String) (s : Session) :
    Answer (List BootTimeline) :=
  sc.gather
    (fun p a =>
      (bootTimeline? targets p.toString a.summary.className a.methods).map Option.toList)
    (sc.targetFiles root targets excluded) s

/-- The first of some files with the definition of a target. -/
def findDefinition (sc : Scanner) (target : DefinitionTarget) :
    List Path → Session → Option (Path × Location) × Session
  | [], s => (none, s)
  | p :: rest, s =>
      if s.isStopped sc.cancel then (none, s.asked)
      else
        match sc.workspace.readText p with
        | .error e =>
            let notice := "Failed to read " ++ p.toString ++ ": " ++ e.message
            sc.findDefinition target rest
              (s.asked.tell .warning "java_lens.inputs.directory_scanning" notice)
        | .ok t =>
            match target.findIn t with
            | some location => (some (p, location), s.asked)
            | none => sc.findDefinition target rest s.asked

/-- The files in which a kind of definition is looked for: a pattern, and a directory that they
must be below. -/
def candidates : DefinitionKind → String × Option String
  | .serviceContext => ("service_contexts", none)
  | .initService => ("*.rc", none)
  | .jniMethod => ("*.cpp", some "jni")

/-- The definition of a target below a directory. -/
def definition (sc : Scanner) (target : DefinitionTarget) (root : Path) (excluded : List String)
    (s : Session) : Option (Path × Location) × Session :=
  let (pattern, under) := candidates target.kind
  sc.findDefinition target (sc.workspace.filesMatching root pattern excluded under) s

end Scanner

end JavaSurvey
