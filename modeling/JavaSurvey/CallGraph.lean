import JavaSurvey.CallSite.Scan
import JavaSurvey.Path

/-!
# Call graphs

The callers and the callees, within one file, of the method at an offset. A call is taken for a
call of the first method with its name and its number of arguments.
-/

namespace JavaSurvey

/-- A method, with the file and the line where it is declared. -/
structure MethodRef where
  className : String
  methodName : String
  filePath : String
  line : Int
  deriving DecidableEq, Repr

/-- A method with the methods that call it and those that it calls. -/
structure CallGraph where
  method : String
  callers : List MethodRef
  callees : List MethodRef
  deriving DecidableEq, Repr

/-- The first method whose declaration holds an offset. -/
def methodAt? (methods : List MethodDecl) (offset : Int) : Option MethodDecl :=
  methods.find? (·.span.touches offset)

/-- The first method whose scope holds an offset. -/
def enclosingMethod? (methods : List MethodDecl) (offset : Int) : Option MethodDecl :=
  methods.find? (·.scope.touches offset)

/-- Whether a call has the name and the number of arguments of a method. -/
def CallSite.fits (call : CallSite) (m : MethodDecl) : Bool :=
  m.name == call.name && m.arity == call.arguments

/-- The reference to a method of a class in a file. -/
def MethodDecl.ref (m : MethodDecl) (className filePath : String) : MethodRef :=
  ⟨className, m.name, filePath, m.line⟩

/-- The methods of the file that a method calls, one for every call. -/
def callees (className filePath : String) (methods : List MethodDecl) (calls : List CallSite)
    (m : MethodDecl) : List MethodRef :=
  (calls.filter fun call => m.scope.touches call.offset).filterMap fun call =>
    (methods.find? call.fits).map (·.ref className filePath)

/-- The methods around the calls that fit a method, in the order of the calls. -/
def callingMethods (methods : List MethodDecl) (calls : List CallSite) (m : MethodDecl) :
    List MethodDecl :=
  (calls.filter (·.fits m)).filterMap fun call => enclosingMethod? methods call.offset

/-- The methods of the file that call a method, each name and line once. -/
def callers (className filePath : String) (methods : List MethodDecl) (calls : List CallSite)
    (m : MethodDecl) : List MethodRef :=
  ((callingMethods methods calls m).map fun caller => (caller.name, caller.line)).eraseDups.map
    fun (name, line) => ⟨className, name, filePath, line⟩

/-- The class, the name and the number of parameters of a method. -/
def MethodDecl.label (m : MethodDecl) (className : String) : String :=
  s!"{className}.{m.name}({m.arity})"

/-- The call graph of the method at an offset, if there is one. -/
def callGraph? (className filePath : String) (methods : List MethodDecl) (calls : List CallSite)
    (offset : Int) : Option CallGraph :=
  (methodAt? methods offset).map fun m => {
    method := m.label className
    callers := callers className filePath methods calls m
    callees := callees className filePath methods calls m }

/-- A reference as it is shown. -/
def MethodRef.show (r : MethodRef) : String :=
  let file := fileName r.filePath
  s!"{r.className}.{r.methodName} · {file}:{r.line}"

end JavaSurvey
