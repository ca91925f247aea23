import JavaSurvey.Proofs.Calls.Matching
import JavaSurvey.Proofs.Declarations

/-!
# Headers of methods

Call sites are found in the text of bodies, as names before a parenthesis. The header of a method is
a name before a parenthesis too, and the body of a method may declare others, in a local or an
anonymous class.

1. `exists_callSite_iff`: an offset is listed exactly if the text of some body has a call there;
2. `header_listed_iff`: so a header is listed exactly if it reads as a call in the body of a method,
   and where the leaves are in order that is the body of another method, which has the declaration
   in it. The header of a method that is not declared inside the body of another is never listed;
3. `localClass_header_called`: the header of a method in a local class is listed, so that the method
   around it is taken for a caller.
-/

namespace JavaSurvey

/-! ## Calls in bodies -/

/-- The text of a body has a call at an offset of the source. -/
def Span.ReadsCall (body : Span) (source : Text) (offset : Int) : Prop :=
  ∃ start stop first last,
    CallBetween (Text.slice source body.start body.stop) start stop first last ∧
    offset = body.start + start

/-- A call lies in the body that has it in its text, wherever the body is. -/
theorem Span.ReadsCall.holds {body : Span} {source : Text} {offset : Int}
    (reads : body.ReadsCall source offset) : body.Holds offset := by
  obtain ⟨start, stop, first, last, call, rfl⟩ := reads
  obtain ⟨c, isFirst, -⟩ := call.starts
  have inside := (List.getElem?_eq_some_iff.mp isFirst).1
  have bounded := Text.length_slice_le source body.ordered
  exact ⟨by omega, by omega⟩

theorem exists_bodyCall_iff {source : Text} {lines : LineIndex} {m : MethodDecl} {offset : Int} :
    (∃ s ∈ bodyCalls source lines m, s.offset = offset) ↔
      ∃ body, m.body = some body ∧ body.ReadsCall source offset := by
  unfold bodyCalls
  cases m.body with
  | none => simp
  | some body =>
    constructor
    · rintro ⟨s, found, rfl⟩
      obtain ⟨start, stop, first, last, call, rfl⟩ := mem_scanCalls_iff.mp found
      exact ⟨body, rfl, start, stop, first, last, call, rfl⟩
    · rintro ⟨_, ⟨⟩, start, stop, first, last, call, rfl⟩
      exact ⟨_, mem_scanCalls_iff.mpr ⟨start, stop, first, last, call, rfl⟩, rfl⟩

/-- An offset is listed exactly if the text of a body has a call there. -/
theorem exists_callSite_iff {source : Text} {lines : LineIndex} {methods : List MethodDecl}
    {offset : Int} :
    (∃ s ∈ callSites source lines methods, s.offset = offset) ↔
      ∃ m ∈ methods, ∃ body, m.body = some body ∧ body.ReadsCall source offset := by
  simp only [← @exists_bodyCall_iff source lines]
  constructor
  · rintro ⟨s, listed, here⟩
    obtain ⟨m, declared, found⟩ := mem_callSites listed
    exact ⟨m, declared, s, found, here⟩
  · rintro ⟨m, declared, s, found, rfl⟩
    exact (callSites_run_complete source lines methods []).2 m declared s found

/-! ## Bodies of nodes -/

namespace Node

/-- The tokens in the name slot of a declaration. -/
def nameTokens (method : Node) : List Token :=
  (method.inSlot "name").filterMap Element.token?

/-- The block that is the body of a method. -/
def bodyBlock? (method : Node) : Option Node :=
  (method.inSlot "body").findSome? fun e => e.node?.filter (·.name == "block")

/-- A method is declared somewhere in the body of another one. -/
def DeclaredIn (method outer : Node) : Prop :=
  ∃ block, outer.bodyBlock? = some block ∧ method ∈ block.preorder

theorem mem_children_of_mem_nameTokens {method : Node} {name : Token}
    (member : name ∈ method.nameTokens) : Element.token "name" name ∈ method.children := by
  obtain ⟨e, inSlot, isToken⟩ := List.mem_filterMap.mp member
  obtain ⟨child, slot⟩ := List.mem_filter.mp inSlot
  cases e with
  | node s kind children => cases isToken
  | token s t =>
    cases isToken
    cases eq_of_beq slot
    exact child

theorem bodyBlock?_of_bodyRange? {method : Node} {r : Int × Int}
    (range : bodyRange? method = some r) :
    ∃ block, method.bodyBlock? = some block ∧ block.range? = some r := by
  unfold bodyRange? at range
  split at range
  · next block found => exact ⟨block, found, range⟩
  · cases range

theorem mem_nodesAll_of_bodyBlock? {method block : Node} (body : method.bodyBlock? = some block) :
    block ∈ Element.nodesAll method.children := by
  obtain ⟨e, inSlot, isBlock⟩ := List.exists_of_findSome?_eq_some body
  obtain ⟨isNode, -⟩ := Option.filter_eq_some_iff.mp isBlock
  exact mem_nodesAll_of_child (List.mem_filter.mp inSlot).1 isNode

/-- No method is declared in its own body. -/
theorem DeclaredIn.ne {method outer : Node} (nested : method.DeclaredIn outer) :
    outer ≠ method := by
  rintro rfl
  obtain ⟨block, body, below⟩ := nested
  have inBlock := size_le_of_mem_preorder below
  have inMethod := Element.size_le_of_mem_nodesAll (mem_nodesAll_of_bodyBlock? body)
  exact absurd (Nat.le_trans inBlock inMethod) (Nat.not_succ_le_self _)

theorem mem_preorder_of_mem_findAll {root n : Node} {kind : String}
    (found : n ∈ root.findAll kind) : n ∈ root.preorder := by
  rw [findAll_eq] at found
  exact (List.mem_filter.mp found).1

end Node

/-- A declaration whose name starts in the body of a method is declared in it, where the leaves are
in order. -/
theorem declaredIn_of_holds {source : Text} {lines : LineIndex} {tree : Concrete}
    {root method outer : Node} {m : MethodDecl} {body : Span} {name : Token}
    (parsed : parse source tree = .ok root) (inOrder : tree.LeavesInOrder source)
    (inRoot : method ∈ root.preorder) (outerInRoot : outer ∈ root.preorder)
    (named : name ∈ method.nameTokens) (made : methodDecl? source lines outer = .ok (some m))
    (isBody : m.body = some body) (holds : body.Holds name.start) : method.DeclaredIn outer := by
  obtain ⟨block, isBlock, range⟩ :=
    Node.bodyBlock?_of_bodyRange? ((methodDecl?_eq_some made).2 body isBody)
  have blockInRoot := Node.mem_preorder_trans outerInRoot
    (List.mem_cons_of_mem _ (Node.mem_nodesAll_of_bodyBlock? isBlock))
  exact ⟨block, isBlock, inOrder.mem_preorder_of_start (toNode_of_parse parsed) inRoot blockInRoot
    (Node.mem_children_of_mem_nameTokens named) range holds.1 holds.2⟩

/-- The name of a declared method is listed as a call exactly if it lies in the body of a method of
the analysis, and the text of that body has a call there. Where the leaves are in order, that is
exactly if the method is declared in the body of another one, the text of which has a call at the
name. -/
theorem header_listed_iff {source : Text} {fallback : String} {tree : Concrete} {root : Node}
    {a : FileAnalysis} (parsed : parse source tree = .ok root)
    (analyzed : analyze source fallback tree = .ok a) {method : Node}
    (declared : method ∈ root.findAll "method_declaration") {name : Token}
    (named : name ∈ method.nameTokens) :
    ((∃ call ∈ a.calls, call.offset = name.start) ↔
      ∃ m ∈ a.methods, ∃ body, m.body = some body ∧ body.Holds name.start ∧
        body.ReadsCall source name.start) ∧
    (tree.LeavesInOrder source →
      ((∃ call ∈ a.calls, call.offset = name.start) ↔
        ∃ outer ∈ root.findAll "method_declaration", outer ≠ method ∧ method.DeclaredIn outer ∧
          ∃ m ∈ a.methods, methodDecl? source (LineIndex.ofText source) outer = .ok (some m) ∧
            ∃ body, m.body = some body ∧ body.ReadsCall source name.start)) := by
  obtain ⟨root', parsed', methods, calls⟩ := analyze_inv analyzed
  cases parsed.symm.trans parsed'
  rw [calls, exists_callSite_iff]
  refine ⟨?_, fun inOrder => ?_⟩
  · constructor
    · rintro ⟨m, isMethod, body, isBody, reads⟩
      exact ⟨m, isMethod, body, isBody, reads.holds, reads⟩
    · rintro ⟨m, isMethod, body, isBody, -, reads⟩
      exact ⟨m, isMethod, body, isBody, reads⟩
  · constructor
    · rintro ⟨m, isMethod, body, isBody, reads⟩
      obtain ⟨outer, isOuter, made⟩ := List.mem_filterMap.mp (methods ▸ isMethod)
      rw [declarationOf?_eq_some] at made
      have nested : method.DeclaredIn outer := declaredIn_of_holds parsed inOrder
        (Node.mem_preorder_of_mem_findAll declared) (Node.mem_preorder_of_mem_findAll isOuter)
        named made isBody reads.holds
      exact ⟨outer, isOuter, nested.ne, nested, m, isMethod, made, body, isBody, reads⟩
    · rintro ⟨outer, -, -, -, m, isMethod, -, body, isBody, reads⟩
      exact ⟨m, isMethod, body, isBody, reads⟩

/-! ## A local class -/

/-- A source with a method that declares another one in a local class. -/
def localClassSource : Text :=
  "class A \x7b void f() \x7b class B \x7b void g() \x7b \x7d \x7d \x7d \x7d".toList

/-- The tree of `localClassSource`. -/
def localClassTree : Concrete :=
  .mk { kind := "program", startByte := 0, endByte := 49 } [
    plainClass 0 49 [voidMethod 10 47 [plainClass 21 45 [voidMethod 31 43 []]]]]

theorem localClass_inOrder : localClassTree.LeavesInOrder localClassSource :=
  ⟨by decide +kernel, by decide +kernel⟩

/-- The header of `g` is listed as a call, and `f` as the caller of `g`. -/
theorem localClass_listed :
    ∃ root a, parse localClassSource localClassTree = .ok root ∧
      analyze localClassSource "A" localClassTree = .ok a ∧
      (∃ method ∈ root.findAll "method_declaration", ∃ name ∈ method.nameTokens,
        ∃ call ∈ a.calls, call.offset = name.start) ∧
      (a.methods.map fun m => (m.name,
        (callers "A" "A.java" a.methods a.calls m).map MethodRef.methodName,
        (callees "A" "A.java" a.methods a.calls m).map MethodRef.methodName)) =
        [("f", [], ["g"]), ("g", ["f"], [])] := by
  have names : (parse localClassSource localClassTree).map (fun root =>
      (root.findAll "method_declaration").flatMap fun method => method.nameTokens.map Token.start) =
      .ok [15, 36] := by decide +kernel
  have calls : (analyze localClassSource "A" localClassTree).map (fun a =>
      (a.calls.map CallSite.offset, a.methods.map fun m => (m.name,
        (callers "A" "A.java" a.methods a.calls m).map MethodRef.methodName,
        (callees "A" "A.java" a.methods a.calls m).map MethodRef.methodName))) =
      .ok ([36], [("f", [], ["g"]), ("g", ["f"], [])]) := by decide +kernel
  obtain ⟨root, parsed, starts⟩ := exists_of_map_eq_ok names
  obtain ⟨a, analyzed, listed⟩ := exists_of_map_eq_ok calls
  obtain ⟨offsets, graph⟩ := Prod.mk.inj listed
  have isStart : (36 : Int) ∈ (root.findAll "method_declaration").flatMap
      fun method => method.nameTokens.map Token.start := by
    rw [starts]
    decide
  have isOffset : (36 : Int) ∈ a.calls.map CallSite.offset := by
    rw [offsets]
    decide
  obtain ⟨method, declared, isName⟩ := List.mem_flatMap.mp isStart
  obtain ⟨name, named, start⟩ := List.mem_map.mp isName
  obtain ⟨call, isCall, offset⟩ := List.mem_map.mp isOffset
  exact ⟨root, a, parsed, analyzed, ⟨method, declared, name, named, call, isCall,
    offset.trans start.symm⟩, graph⟩

theorem header_listed_iff_localClass :
    localClassTree.LeavesInOrder localClassSource ∧
      ∃ root a, parse localClassSource localClassTree = .ok root ∧
        analyze localClassSource "A" localClassTree = .ok a ∧
        ∃ method ∈ root.findAll "method_declaration", ∃ name ∈ method.nameTokens,
          (∃ call ∈ a.calls, call.offset = name.start) ∧
          ∃ outer ∈ root.findAll "method_declaration",
            outer ≠ method ∧ method.DeclaredIn outer ∧
            ∃ m ∈ a.methods,
              methodDecl? localClassSource (LineIndex.ofText localClassSource) outer =
                .ok (some m) ∧
              ∃ body, m.body = some body ∧ body.ReadsCall localClassSource name.start := by
  obtain ⟨root, a, parsed, analyzed, ⟨method, declared, name, named, listed⟩, -⟩ :=
    localClass_listed
  have nested := ((header_listed_iff parsed analyzed declared named).2 localClass_inOrder).mp listed
  exact ⟨localClass_inOrder, root, a, parsed, analyzed, method, declared, name, named, listed,
    nested⟩

theorem localClass_header_called :
    ∃ root a, parse localClassSource localClassTree = .ok root ∧
      analyze localClassSource "A" localClassTree = .ok a ∧
      (¬ ∀ method ∈ root.findAll "method_declaration", ∀ name ∈ method.nameTokens,
        ∀ call ∈ a.calls, call.offset ≠ name.start) ∧
      (a.methods.map fun m => (m.name,
        (callers "A" "A.java" a.methods a.calls m).map MethodRef.methodName,
        (callees "A" "A.java" a.methods a.calls m).map MethodRef.methodName)) =
        [("f", [], ["g"]), ("g", ["f"], [])] := by
  obtain ⟨root, a, parsed, analyzed, ⟨method, declared, name, named, call, listed, here⟩, graph⟩ :=
    localClass_listed
  exact ⟨root, a, parsed, analyzed,
    fun apart => apart method declared name named call listed here, graph⟩

end JavaSurvey
