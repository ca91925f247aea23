import JavaSurvey.Outline.File
import JavaSurvey.Proofs.Syntax.Walk

/-!
# Outlines

An outline is made of a tree by functions that may refuse what they are given. On a tree whose
tokens lie in the text none of them does:

1. `methodDecl?_ok`: a method node is passed over or becomes a declaration inside the text, with
   its body inside the declaration;
2. `outline_eq`: beyond its methods nothing of an outline is refused, and the fallback is at most
   its name;
3. `outline_ok`: the whole outline is made, with its methods inside the text.
-/

namespace JavaSurvey

namespace MethodDecl

/-- A declaration is a nonempty piece of a text of `length` characters, and its body is a nonempty
piece of the declaration. -/
structure Within (m : MethodDecl) (length : Nat) : Prop where
  nonneg : 0 ≤ m.span.start
  nonempty : m.span.start < m.span.stop
  bounded : m.span.stop ≤ length
  body : ∀ b, m.body = some b →
    m.span.start ≤ b.start ∧ b.start < b.stop ∧ b.stop ≤ m.span.stop

/-- Offsets in order are taken as they are. -/
theorem check_ok (summary : MethodSummary) (signature : String) {start stop : Int}
    {body : Option (Int × Int)} (ordered : start ≤ stop) (bodyOrdered : ∀ r ∈ body, r.1 ≤ r.2) :
    ∃ m, check summary signature start stop (body.map (·.1)) (body.map (·.2)) = .ok m ∧
      m.span.start = start ∧ m.span.stop = stop ∧
      m.body.map (fun b => (b.start, b.stop)) = body := by
  unfold check
  rw [dif_pos ordered]
  cases body with
  | none => exact ⟨_, rfl, rfl, rfl, rfl⟩
  | some r =>
    have inOrder := bodyOrdered r rfl
    refine ⟨⟨summary, signature, ⟨start, stop, ordered⟩, some ⟨r.1, r.2, inOrder⟩⟩, ?_, rfl, rfl,
      rfl⟩
    simp [inOrder]

end MethodDecl

/-! ## Methods -/

/-- The body of a method has the range of one of its children. -/
theorem bodyRange?_eq_some {method : Node} {r : Int × Int} (range : bodyRange? method = some r) :
    ∃ body : Node, (∀ t ∈ body.tokens, t ∈ method.tokens) ∧ body.range? = some r := by
  unfold bodyRange? at range
  split at range
  · next body found =>
    obtain ⟨e, inSlot, isBlock⟩ := List.exists_of_findSome?_eq_some found
    obtain ⟨isNode, -⟩ := Option.filter_eq_some_iff.mp isBlock
    have child : e ∈ method.children := (List.mem_filter.mp inSlot).1
    exact ⟨body, fun t member => Node.mem_tokens_of_child child isNode member, range⟩
  · cases range

/-- A method node with tokens in the text is passed over or becomes a declaration in the text. -/
theorem methodDecl?_ok (source : Text) (lines : LineIndex) {method : Node} {length : Nat}
    (inside : ∀ t ∈ method.tokens, t.Within length) :
    ∃ found, methodDecl? source lines method = .ok found ∧ ∀ m ∈ found, m.Within length := by
  unfold methodDecl?
  split
  · next name parameters start stop _ range =>
    obtain ⟨nonneg, nonempty, bounded⟩ := Node.range?_within inside range
    have bodyWithin : ∀ r ∈ bodyRange? method, start ≤ r.1 ∧ r.1 < r.2 ∧ r.2 ≤ stop := by
      intro r found
      obtain ⟨body, subset, bodyRange⟩ := bodyRange?_eq_some found
      have nested := Node.range?_nested subset range bodyRange
      have own := Node.range?_within (fun t member => inside t (subset t member)) bodyRange
      exact ⟨nested.1, own.2.1, nested.2⟩
    have bodyOrdered : ∀ r ∈ bodyRange? method, r.1 ≤ r.2 :=
      fun r found => Int.le_of_lt (bodyWithin r found).2.1
    obtain ⟨m, made, atStart, atStop, atBody⟩ := MethodDecl.check_ok
      { name := name.image
        arity := parameterCount parameters
        visibility := visibilityOf method.modifiers
        isStatic := hasStatic method.modifiers
        line := lines.lineOf name.start }
      (signatureOf source method name parameters) (Int.le_of_lt nonempty) bodyOrdered
    refine ⟨some m, by simp only [made, Except.map], ?_⟩
    rintro _ ⟨⟩
    refine ⟨by omega, by omega, by omega, fun b isBody => ?_⟩
    rw [atStart, atStop]
    exact bodyWithin (b.start, b.stop) (by rw [← atBody, isBody]; rfl)
  · exact ⟨none, rfl, fun m member => by cases member⟩

theorem methodDecls_ok (source : Text) (lines : LineIndex) {methods : List Node} {length : Nat}
    (inside : ∀ n ∈ methods, ∀ t ∈ n.tokens, t.Within length) :
    ∃ decls, methodDecls source lines methods = .ok decls ∧ ∀ m ∈ decls, m.Within length := by
  induction methods with
  | nil => exact ⟨[], rfl, fun m member => by cases member⟩
  | cons method rest ih =>
    obtain ⟨found, first, firstWithin⟩ :=
      methodDecl?_ok source lines (inside method List.mem_cons_self)
    obtain ⟨decls, others, othersWithin⟩ :=
      ih fun n member => inside n (List.mem_cons_of_mem _ member)
    refine ⟨found.toList ++ decls, ?_, ?_⟩
    · rw [methodDecls, first, others]
      rfl
    · intro m member
      rcases List.mem_append.mp member with inFirst | inOthers
      · exact firstWithin m (by simpa using inFirst)
      · exact othersWithin m inOthers

/-! ## Files -/

/-- The name of a file: that of its first class, or the fallback. -/
def fileClass (root : Node) (fallback : String) : String :=
  (classNames root).head?.getD fallback

/-- Fallbacks matter only where no class is declared. -/
theorem fileClass_eq_iff {root : Node} {f g : String} :
    fileClass root f = fileClass root g ↔ f = g ∨ classNames root ≠ [] := by
  unfold fileClass
  cases classNames root with
  | nil => simp
  | cons name names => simp

/-- The outline of a file with a name and method declarations. -/
def outlineNamed (source : Text) (root : Node) (name : String) (decls : List MethodDecl) :
    Outline where
  summary := {
    className := name
    packageName := packageName source root
    fields := (root.findAll "field_declaration").flatMap
      (fieldSummaries source (LineIndex.ofText source))
    methods := decls.map MethodDecl.toMethodSummary
    innerClasses := (classNames root).tail.filter (· != name)
    distinct := by simp }
  methods := decls

/-- An outline is refused only where its methods are, and its fallback is part of its name only:
the name of the file is taken out of the inner classes, so it is never among them. -/
theorem outline_eq (source : Text) (fallback : String) (root : Node) :
    outline source fallback root =
      (methodDecls source (LineIndex.ofText source) (root.findAll "method_declaration")).map
        (outlineNamed source root (fileClass root fallback)) := by
  simp only [outline]
  cases methodDecls source (LineIndex.ofText source) (root.findAll "method_declaration") with
  | error e => rfl
  | ok decls =>
    have distinct : fileClass root fallback ∉
        (classNames root).tail.filter (· != fileClass root fallback) := by simp
    simp only [fileClass] at distinct
    simp only [bind, Except.bind, Except.map, ClassSummary.check, dif_neg distinct]
    rfl

/-- The outline of a tree with tokens in the text is made, and its methods lie in the text. -/
theorem outline_ok {source : Text} (fallback : String) {root : Node}
    (inside : ∀ t ∈ root.tokens, t.Within source.length) :
    ∃ o, outline source fallback root = .ok o ∧ ∀ m ∈ o.methods, m.Within source.length := by
  have methodsInside : ∀ n ∈ root.findAll "method_declaration",
      ∀ t ∈ n.tokens, t.Within source.length :=
    fun n found t member => inside t (Node.mem_tokens_of_mem_findAll found member)
  obtain ⟨decls, read, within⟩ := methodDecls_ok source (LineIndex.ofText source) methodsInside
  exact ⟨_, by rw [outline_eq, read]; rfl, within⟩

end JavaSurvey
