import JavaSurvey.BootTimeline
import JavaSurvey.Json
import JavaSurvey.Locks
import JavaSurvey.Navigation

/-!
# Export

The JSON form of everything that the survey finds. A record becomes an object with its fields in
order, a visibility or a kind of definition its word, and lists and tuples become lists.
-/

namespace JavaSurvey

/-- The list of the forms of some values. -/
def Json.listOf {α : Type} (form : α → Json) (xs : List α) : Json :=
  .list (xs.map form)

/-- The form of a value, or null when there is none. -/
def Json.optional {α : Type} (form : α → Json) : Option α → Json
  | some x => form x
  | none => .null

def Visibility.json (v : Visibility) : Json :=
  .str v.word

def FieldSummary.json (f : FieldSummary) : Json :=
  .object [("name", .str f.name), ("type", .str f.type), ("visibility", f.visibility.json),
    ("is_static", .bool f.isStatic), ("start_line", .int f.line)]

def MethodSummary.json (m : MethodSummary) : Json :=
  .object [("name", .str m.name), ("params_count", .int m.arity),
    ("visibility", m.visibility.json), ("is_static", .bool m.isStatic),
    ("start_line", .int m.line)]

def MethodDecl.json (m : MethodDecl) : Json :=
  .object [("name", .str m.name), ("params_count", .int m.arity),
    ("visibility", m.visibility.json), ("is_static", .bool m.isStatic),
    ("start_line", .int m.line), ("signature", .str m.signature),
    ("start_offset", .int m.span.start), ("end_offset", .int m.span.stop),
    ("body_start_offset", Json.optional (.int ·.start) m.body),
    ("body_end_offset", Json.optional (.int ·.stop) m.body)]

def CallSite.json (c : CallSite) : Json :=
  .object [("name", .str c.name), ("args_count", .int c.arguments),
    ("start_offset", .int c.offset), ("line", .int c.line)]

def MethodRef.json (r : MethodRef) : Json :=
  .object [("class_name", .str r.className), ("method_name", .str r.methodName),
    ("file_path", .str r.filePath), ("line", .int r.line)]

def CallGraph.json (g : CallGraph) : Json :=
  .object [("method", .str g.method), ("callers", Json.listOf MethodRef.json g.callers),
    ("callees", Json.listOf MethodRef.json g.callees)]

def ClassSummary.json (s : ClassSummary) : Json :=
  .object [("class_name", .str s.className), ("package_name", .str s.packageName),
    ("fields", Json.listOf FieldSummary.json s.fields),
    ("methods", Json.listOf MethodSummary.json s.methods),
    ("inner_classes", Json.listOf Json.str s.innerClasses)]

def BinderService.json (b : BinderService) : Json :=
  .object [("name", .str b.name), ("line", .int b.line)]

def SystemService.json (s : SystemService) : Json :=
  .object [("service_class", .str s.className),
    ("on_start_line", Json.optional Json.int s.onStartLine),
    ("on_boot_phases", Json.listOf Json.int s.onBootPhaseLines),
    ("binder_services", Json.listOf BinderService.json s.binderServices)]

def BootStep.json (e : BootStep) : Json :=
  .object [("name", .str e.name), ("line", .int e.line)]

def BootTimeline.json (t : BootTimeline) : Json :=
  .object [("file_path", .str t.filePath), ("class_name", .str t.className),
    ("entries", Json.listOf BootStep.json t.steps)]

def Span.json (s : Span) : Json :=
  .object [("start_offset", .int s.start), ("end_offset", .int s.stop)]

def LockWarning.json (w : LockWarning) : Json :=
  .object [("range", w.range.json), ("line", .int w.line), ("message", .str w.message)]

def FileAnalysis.json (a : FileAnalysis) : Json :=
  .object [("summary", a.summary.json),
    ("method_decls", Json.listOf MethodDecl.json a.methods),
    ("method_invocations", Json.listOf CallSite.json a.calls),
    ("system_service", Json.optional SystemService.json a.service)]

/-- Anything that the survey finds. -/
inductive Finding where
  | field (f : FieldSummary)
  | methodSummary (m : MethodSummary)
  | method (m : MethodDecl)
  | call (c : CallSite)
  | methodRef (r : MethodRef)
  | callGraph (g : CallGraph)
  | classSummary (s : ClassSummary)
  | binderService (b : BinderService)
  | systemService (s : SystemService)
  | bootStep (e : BootStep)
  | bootTimeline (t : BootTimeline)
  | span (s : Span)
  | lockWarning (w : LockWarning)
  | fileAnalysis (a : FileAnalysis)
  deriving Repr

/-- The JSON form of a finding. -/
def Finding.json : Finding → Json
  | field f => f.json
  | methodSummary m => m.json
  | method m => m.json
  | call c => c.json
  | methodRef r => r.json
  | callGraph g => g.json
  | classSummary s => s.json
  | binderService b => b.json
  | systemService s => s.json
  | bootStep e => e.json
  | bootTimeline t => t.json
  | span s => s.json
  | lockWarning w => w.json
  | fileAnalysis a => a.json

/-- A value that can be exported: plain data, the words and findings of the survey, and lists,
tuples and dictionaries of such values. -/
inductive Exportable where
  | null
  | bool (value : Bool)
  | int (value : Int)
  | str (value : String)
  | list (items : List Exportable)
  | tuple (items : List Exportable)
  | dictionary (fields : List (String × Exportable))
  | visibility (v : Visibility)
  | definitionKind (k : DefinitionKind)
  | finding (f : Finding)
  deriving Repr

namespace Exportable

mutual

/-- The JSON form of a value. -/
def json : Exportable → Json
  | null => .null
  | bool b => .bool b
  | int n => .int n
  | str s => .str s
  | list items => .list (jsonAll items)
  | tuple items => .list (jsonAll items)
  | dictionary fields => .object (jsonFields fields)
  | visibility v => .str v.word
  | definitionKind k => .str k.word
  | finding f => f.json

/-- The JSON forms of some values. -/
def jsonAll : List Exportable → List Json
  | [] => []
  | x :: xs => json x :: jsonAll xs

/-- The JSON form of a field. -/
def jsonField : String × Exportable → String × Json
  | (key, value) => (key, json value)

/-- The JSON forms of some fields. -/
def jsonFields : List (String × Exportable) → List (String × Json)
  | [] => []
  | x :: xs => jsonField x :: jsonFields xs

end

end Exportable

end JavaSurvey
