import JavaSurvey.Failure

/-!
# Declarations

What a file declares: its fields, its methods and its classes. The conditions that every
declaration meets are part of its type, and the functions named `check` build a declaration from
values that may break them.
-/

namespace JavaSurvey

/-- Who may use a declaration; `package` is what a declaration without an access modifier has. -/
inductive Visibility where
  | «public»
  | «private»
  | «protected»
  | package
  deriving DecidableEq, Repr, Inhabited

namespace Visibility

/-- The word for a visibility. -/
def word : Visibility → String
  | «public» => "public"
  | «private» => "private"
  | «protected» => "protected"
  | package => "package"

/-- The visibility that a word stands for. -/
def ofWord? : String → Option Visibility
  | "public" => some «public»
  | "private" => some «private»
  | "protected" => some «protected»
  | "package" => some package
  | _ => none

/-- The visibility that a word stands for. -/
def check (word : String) : Except Failure Visibility :=
  match ofWord? word with
  | some v => .ok v
  | none => .error (.unknownVisibility word)

end Visibility

/-- The characters from `start` up to, and without, `stop`. -/
structure Span where
  start : Int
  stop : Int
  ordered : start ≤ stop
  deriving DecidableEq, Repr

/-- The span between two offsets. -/
def Span.check (start stop : Int) : Except Failure Span :=
  if h : start ≤ stop then .ok ⟨start, stop, h⟩ else .error (.reversedRange start stop)

/-- Whether a span holds an offset, its end included. -/
def Span.touches (s : Span) (offset : Int) : Bool :=
  s.start ≤ offset ∧ offset ≤ s.stop

@[simp] theorem Span.touches_iff {s : Span} {offset : Int} :
    s.touches offset = true ↔ s.start ≤ offset ∧ offset ≤ s.stop := by
  rw [touches, decide_eq_true_iff]

/-- A variable of a field declaration. -/
structure FieldSummary where
  name : String
  /-- The declared type as it stands in the source. -/
  type : String
  visibility : Visibility
  isStatic : Bool
  line : Int
  deriving DecidableEq, Repr

/-- A method without its place in the source. -/
structure MethodSummary where
  name : String
  arity : Int
  visibility : Visibility
  isStatic : Bool
  line : Int
  deriving DecidableEq, Repr

/-- A method declaration with its place in the source. -/
structure MethodDecl extends MethodSummary where
  /-- The result type, the name and the parameters as they stand in the source. -/
  signature : String
  span : Span
  body : Option Span
  deriving DecidableEq, Repr

namespace MethodDecl

/-- A method declaration from its offsets. -/
def check (summary : MethodSummary) (signature : String) (start stop : Int)
    (bodyStart bodyStop : Option Int) : Except Failure MethodDecl :=
  if h : start ≤ stop then
    let span : Span := ⟨start, stop, h⟩
    match bodyStart, bodyStop with
    | none, none => .ok ⟨summary, signature, span, none⟩
    | some a, some b =>
        if k : a ≤ b then .ok ⟨summary, signature, span, some ⟨a, b, k⟩⟩
        else .error (.method summary.name .reversedBody)
    | _, _ => .error (.method summary.name .halfBody)
  else .error (.method summary.name (.reversed start stop))

/-- Where a method's own calls are: its body, or all of it when it has none. -/
def scope (m : MethodDecl) : Span :=
  m.body.getD m.span

end MethodDecl

/-- What a file declares. -/
structure ClassSummary where
  className : String
  packageName : String
  fields : List FieldSummary
  methods : List MethodSummary
  innerClasses : List String
  distinct : className ∉ innerClasses
  deriving DecidableEq, Repr

/-- The summary of a class that must not be among its inner classes. -/
def ClassSummary.check (className packageName : String) (fields : List FieldSummary)
    (methods : List MethodSummary) (innerClasses : List String) : Except Failure ClassSummary :=
  if h : className ∈ innerClasses then .error (.repeatedClass className)
  else .ok ⟨className, packageName, fields, methods, innerClasses, h⟩

/-- The summary of a file of which only a name for its class is known. -/
def ClassSummary.empty (className : String) : ClassSummary :=
  ⟨className, "", [], [], [], by simp⟩

end JavaSurvey
