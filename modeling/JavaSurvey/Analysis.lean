import JavaSurvey.CallGraph
import JavaSurvey.Outline.File
import JavaSurvey.Syntax.Reading
import JavaSurvey.SystemService

/-!
# Analysis of a file

Everything that is found out about one file: what it declares, the calls in its methods, and
whether it is a system service.
-/

namespace JavaSurvey

/-- What is known of a file. -/
structure FileAnalysis where
  summary : ClassSummary
  methods : List MethodDecl
  calls : List CallSite
  service : Option SystemService
  deriving DecidableEq, Repr

/-- The analysis of a file of which only a name for its class is known. -/
def FileAnalysis.empty (className : String) : FileAnalysis :=
  ⟨ClassSummary.empty className, [], [], none⟩

/-- The analysis of a source with its syntax tree. -/
def analyzeTree (source : Text) (fallback : String) (root : Node) :
    Except Failure FileAnalysis := do
  let lines := LineIndex.ofText source
  let found ← outline source fallback root
  let calls := callSites source lines found.methods
  let header := (primaryClass? root).map (classHeader source)
  let service ← systemService? source found.summary.className header found.methods calls
  return ⟨found.summary, found.methods, calls, service⟩

/-- The analysis of a source with its concrete tree. -/
def analyze (source : Text) (fallback : String) (tree : Concrete) :
    Except Failure FileAnalysis := do
  let root ← parse source tree
  analyzeTree source fallback root

/-- The summary alone; a source that the grammar rejects has an empty one. -/
def summaryOr (fallback : String) : Except Failure FileAnalysis → Except Failure ClassSummary
  | .ok analysis => .ok analysis.summary
  | .error (.syntaxError _) => .ok (ClassSummary.empty fallback)
  | .error e => .error e

/-- The summary of a source with its concrete tree. -/
def summarize (source : Text) (fallback : String) (tree : Concrete) :
    Except Failure ClassSummary :=
  summaryOr fallback (analyze source fallback tree)

/-- The call graph of the method at an offset of an analysed file. -/
def FileAnalysis.callGraph? (a : FileAnalysis) (filePath : String) (offset : Int) :
    Option CallGraph :=
  JavaSurvey.callGraph? a.summary.className filePath a.methods a.calls offset

end JavaSurvey
