import JavaSurvey.Analysis

/-!
# Boot timelines

The startup methods of the files that start the system, in the order of their lines.
-/

namespace JavaSurvey

/-- A startup method. -/
structure BootStep where
  name : String
  line : Int
  deriving DecidableEq, Repr

/-- The startup methods of a file. -/
structure BootTimeline where
  filePath : String
  className : String
  steps : List BootStep
  sorted : (steps.map BootStep.line).Pairwise (· ≤ ·)
  deriving DecidableEq, Repr

/-- A timeline whose steps must be in the order of their lines. -/
def BootTimeline.check (filePath className : String) (steps : List BootStep) :
    Except Failure BootTimeline :=
  if h : (steps.map BootStep.line).Pairwise (· ≤ ·) then .ok ⟨filePath, className, steps, h⟩
  else .error .unsortedTimeline

/-- The names of the startup methods. -/
def startupMethods : List String :=
  ["main", "startBootstrapServices", "startCoreServices", "startOtherServices"]

/-- The files that start the system. -/
def bootFiles : List String :=
  ["ZygoteInit.java", "SystemServer.java"]

/-- Whether a path names one of the given files. -/
def isTarget (targets : List String) (filePath : String) : Bool :=
  targets.contains (fileName filePath)

/-- The startup methods among some declarations, by line. -/
def bootSteps (methods : List MethodDecl) : List BootStep :=
  sortByKey BootStep.line
    ((methods.filter fun m => startupMethods.contains m.name).map fun m => ⟨m.name, m.line⟩)

/-- The timeline of a file, if it is one of the targets. -/
def bootTimeline? (targets : List String) (filePath className : String)
    (methods : List MethodDecl) : Except Failure (Option BootTimeline) :=
  if isTarget targets filePath then
    (BootTimeline.check filePath className (bootSteps methods)).map some
  else .ok none

/-- The class and the file of a timeline, as they are shown. -/
def BootTimeline.label (t : BootTimeline) : String :=
  let file := fileName t.filePath
  s!"{t.className} ({file})"

end JavaSurvey
