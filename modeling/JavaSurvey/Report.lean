import JavaSurvey.BootTimeline
import JavaSurvey.Locks

/-!
# Reports

What the survey finds, as text for a reader. Every line ends with a newline.
-/

namespace JavaSurvey

/-- Some lines as one text. -/
def reportLines (lines : List String) : String :=
  String.join (lines.map (· ++ "\n"))

/-- A text set to the right of a column of the given width. -/
def alignRight (width : Nat) (s : String) : String :=
  String.ofList (List.replicate (width - s.length) ' ') ++ s

/-- The report on a system service. A start hook on no line is not shown. -/
def SystemService.report (s : SystemService) : String :=
  let onStart := match s.onStartLine with
    | some line => if line = 0 then "-" else s!"@{line}"
    | none => "-"
  reportLines ([s!"\n[SystemService {s.className}]  onStart {onStart}"] ++
    s.onBootPhaseLines.map (fun line => s!"  onBootPhase  line {line}") ++
    s.binderServices.map (fun b => s!"  binder: {b.name}  line {b.line}"))

/-- The words before the name of a declaration. -/
def modifierText (visibility : Visibility) (isStatic : Bool) : String :=
  visibility.word ++ if isStatic then " static" else ""

/-- The full name of the class of a summary. -/
def ClassSummary.title (s : ClassSummary) : String :=
  if s.packageName.isEmpty then s.className else s.packageName ++ "." ++ s.className

/-- The report on a file. -/
def FileAnalysis.report (a : FileAnalysis) : String :=
  let inner := a.summary.innerClasses
  let fieldLine (f : FieldSummary) :=
    let words := modifierText f.visibility f.isStatic
    s!"  {words} {f.type} {f.name}  @ {f.line}"
  let methodLine (m : MethodDecl) :=
    let words := modifierText m.visibility m.isStatic
    s!"  {words} {m.signature}  @ {m.line}"
  reportLines (["\n=== " ++ a.summary.title ++ " ==="] ++
    (if inner.isEmpty then [] else ["inner classes: " ++ String.intercalate ", " inner]) ++
    ["\n--- fields ---"] ++ a.summary.fields.map fieldLine ++
    ["\n--- methods ---"] ++ a.methods.map methodLine) ++
  match a.service with
  | some s => s.report
  | none => ""

/-- The report on a call graph. -/
def CallGraph.report (g : CallGraph) : String :=
  reportLines (["\n=== " ++ g.method ++ " ===", "callers:"] ++
    g.callers.map (fun r => "  <- " ++ r.show) ++ ["callees:"] ++
    g.callees.map (fun r => "  -> " ++ r.show))

/-- The report on a boot timeline. -/
def BootTimeline.report (t : BootTimeline) : String :=
  reportLines (["\n[" ++ t.label ++ "]"] ++
    t.steps.map fun e => "  " ++ alignRight 6 (toString e.line) ++ "  " ++ e.name)

/-- The report on lock hazards. -/
def reportWarnings (warnings : List LockWarning) : String :=
  reportLines (warnings.map fun w => s!"  line {w.line}: {w.message}")

end JavaSurvey
