import JavaSurvey.BootTimeline
import JavaSurvey.Proofs.CallSites
import JavaSurvey.Proofs.Order
import JavaSurvey.Proofs.Syntax.Reading

/-!
# Analyses of trees with spans inside the source

The analysis of a source with a concrete tree goes through bytes, characters, slices of bodies and
lines. As long as the spans of the tree lie within the source, whatever its shape, every step
succeeds and every offset in the result means what it says.

1. `analyzeTree_inv`: what an analysis is made of;
2. `analyze_eq_syntaxError_iff`: a source is refused as a syntax error exactly if it is not parsed;
3. `analyze_located`: the declarations and the call sites of an analysis are where they say they
   are in the source;
4. `analyze_fails_iff_faulty`: a fault that the grammar marked is the only reason to refuse a
   source, a summary is always given, and so is the timeline of an analysed file.
-/

namespace JavaSurvey

/-! ## Steps that may fail -/

/-- A line from the first one on is looked up, or empty after the last one. -/
theorem lineWith_ok (lines : List Text) {number : Int} (positive : 1 ≤ number) :
    ∃ line, lineWith lines number = .ok line := by
  unfold lineWith
  split
  · next inside =>
    have place : (number - 1).toNat < lines.length := by omega
    have nonneg : 0 ≤ number - 1 := by omega
    refine ⟨lines[(number - 1).toNat], ?_⟩
    simp only [Text.index?, nonneg, if_true, List.getElem?_eq_getElem place]
  · exact ⟨[], rfl⟩

theorem publishedServices_ok (lines : List Text) {calls : List CallSite}
    (positive : ∀ s ∈ calls, 1 ≤ s.line) :
    ∃ services, publishedServices lines calls = .ok services := by
  induction calls with
  | nil => exact ⟨[], rfl⟩
  | cons s rest ih =>
    obtain ⟨line, found⟩ := lineWith_ok lines (positive s List.mem_cons_self)
    obtain ⟨services, others⟩ := ih fun u member => positive u (List.mem_cons_of_mem _ member)
    rw [publishedServices, publishedService, found, others]
    exact ⟨_, rfl⟩

theorem systemService?_ok (source : Text) (className : String) (header : Option Text)
    (methods : List MethodDecl) {calls : List CallSite} (positive : ∀ s ∈ calls, 1 ≤ s.line) :
    ∃ service, systemService? source className header methods calls = .ok service := by
  unfold systemService?
  split
  · have publishing : ∀ s ∈ calls.filter fun call => publishCalls.contains call.name,
        1 ≤ s.line := fun s member => positive s (List.mem_filter.mp member).1
    obtain ⟨services, found⟩ := publishedServices_ok (Text.lines source) publishing
    rw [found]
    exact ⟨_, rfl⟩
  · exact ⟨none, rfl⟩

/-- The steps of a timeline are sorted before they are checked, so it is never refused. -/
theorem bootTimeline?_ok (targets : List String) (filePath className : String)
    (methods : List MethodDecl) :
    ∃ timeline, bootTimeline? targets filePath className methods = .ok timeline := by
  unfold bootTimeline?
  split
  · have sorted : ((bootSteps methods).map BootStep.line).Pairwise (· ≤ ·) :=
      List.pairwise_map.mpr (sortByKey_sorted BootStep.line _)
    rw [BootTimeline.check, dif_pos sorted]
    exact ⟨_, rfl⟩
  · exact ⟨none, rfl⟩

/-! ## Parts -/

/-- An analysis is that of the tree which was read. -/
theorem analyze_eq_ok {source : Text} {fallback : String} {tree : Concrete} {a : FileAnalysis}
    (analyzed : analyze source fallback tree = .ok a) :
    ∃ root, parse source tree = .ok root ∧ analyzeTree source fallback root = .ok a := by
  unfold analyze at analyzed
  cases read : parse source tree with
  | error e => rw [read] at analyzed; cases analyzed
  | ok root =>
    rw [read] at analyzed
    exact ⟨root, rfl, analyzed⟩

/-- What an analysis is made of: the methods of the tree, the calls in their bodies, the name of the
file, and the service that the header of the first class speaks of. -/
theorem analyzeTree_inv {source : Text} {fallback : String} {root : Node} {a : FileAnalysis}
    (analyzed : analyzeTree source fallback root = .ok a) :
    methodDecls source (LineIndex.ofText source) (root.findAll "method_declaration") =
        .ok a.methods ∧
      a.calls = callSites source (LineIndex.ofText source) a.methods ∧
      a.summary.className = fileClass root fallback ∧
      systemService? source (fileClass root fallback)
        ((primaryClass? root).map (classHeader source)) a.methods a.calls = .ok a.service := by
  simp only [analyzeTree, outline_eq] at analyzed
  cases decls : methodDecls source (LineIndex.ofText source)
      (root.findAll "method_declaration") with
  | error e => rw [decls] at analyzed; cases analyzed
  | ok methods =>
    simp only [decls, Except.map, bind, Except.bind] at analyzed
    split at analyzed
    · cases analyzed
    · next service made =>
      cases analyzed
      exact ⟨rfl, rfl, rfl, made⟩

/-! ## Names

The fallback is a part of an analysis only through the name of the file. -/

theorem analyzeTree_congr {source : Text} {root : Node} {f g : String}
    (same : fileClass root f = fileClass root g) :
    analyzeTree source f root = analyzeTree source g root := by
  simp only [analyzeTree, outline_eq, same]

theorem className_of_analyzeTree {source : Text} {fallback : String} {root : Node}
    {a : FileAnalysis} (analyzed : analyzeTree source fallback root = .ok a) :
    a.summary.className = fileClass root fallback :=
  (analyzeTree_inv analyzed).2.2.1

/-- Two fallbacks give one analysis exactly if they are the same or the source declares a class. -/
theorem analyze_fallback_iff {source : Text} {f g : String} {tree : Concrete} {a : FileAnalysis}
    (analyzed : analyze source f tree = .ok a) :
    analyze source g tree = .ok a ↔
      f = g ∨ ∃ root, parse source tree = .ok root ∧ classNames root ≠ [] := by
  cases read : parse source tree with
  | error e =>
    rw [analyze, read] at analyzed
    cases analyzed
  | ok root =>
    have onTree (name : String) : analyze source name tree = analyzeTree source name root := by
      rw [analyze, read]
      rfl
    rw [onTree] at analyzed ⊢
    constructor
    · intro again
      have same : fileClass root f = fileClass root g :=
        (className_of_analyzeTree analyzed).symm.trans (className_of_analyzeTree again)
      exact (fileClass_eq_iff.mp same).imp_right fun declared => ⟨root, rfl, declared⟩
    · intro named
      have same : fileClass root g = fileClass root f :=
        (fileClass_eq_iff.mpr (named.imp_right fun ⟨_, rfl, declared⟩ => declared)).symm
      rw [analyzeTree_congr same, analyzed]

/-! ## Syntax errors

Only parsing refuses a source as a syntax error; the failures of all later steps are other ones. -/

/-- A sequence of two steps fails where one of them fails. -/
theorem error_of_bind {α β : Type} {x : Except Failure α} {f : α → Except Failure β} {e : Failure}
    (failed : x >>= f = .error e) : x = .error e ∨ ∃ a, x = .ok a ∧ f a = .error e := by
  cases x with
  | error e' =>
    cases failed
    exact .inl rfl
  | ok a => exact .inr ⟨a, rfl, failed⟩

theorem methodDecl?_ne_syntaxError (source : Text) (lines : LineIndex) (method : Node)
    (offset : Int) : methodDecl? source lines method ≠ .error (.syntaxError offset) := by
  intro failed
  unfold methodDecl? MethodDecl.check at failed
  split at failed
  · dsimp only at failed
    split at failed
    · split at failed
      · cases failed
      · split at failed <;> cases failed
      · cases failed
    · cases failed
  · cases failed

theorem methodDecls_ne_syntaxError (source : Text) (lines : LineIndex) (methods : List Node)
    (offset : Int) : methodDecls source lines methods ≠ .error (.syntaxError offset) := by
  induction methods with
  | nil => nofun
  | cons method rest ih =>
    intro failed
    rcases error_of_bind failed with first | ⟨decl, -, failed⟩
    · exact methodDecl?_ne_syntaxError source lines method offset first
    · rcases error_of_bind failed with others | ⟨decls, -, failed⟩
      · exact ih others
      · cases failed

theorem publishedService_ne_syntaxError (lines : List Text) (call : CallSite) (offset : Int) :
    publishedService lines call ≠ .error (.syntaxError offset) := by
  unfold publishedService lineWith
  split
  · nofun
  · next e failed =>
    split at failed
    · split at failed <;> cases failed
      nofun
    · cases failed

theorem publishedServices_ne_syntaxError (lines : List Text) (calls : List CallSite)
    (offset : Int) : publishedServices lines calls ≠ .error (.syntaxError offset) := by
  induction calls with
  | nil => nofun
  | cons call rest ih =>
    intro failed
    rcases error_of_bind failed with first | ⟨service, -, failed⟩
    · exact publishedService_ne_syntaxError lines call offset first
    · rcases error_of_bind failed with others | ⟨services, -, failed⟩
      · exact ih others
      · cases failed

theorem systemService?_ne_syntaxError (source : Text) (className : String) (header : Option Text)
    (methods : List MethodDecl) (calls : List CallSite) (offset : Int) :
    systemService? source className header methods calls ≠ .error (.syntaxError offset) := by
  unfold systemService?
  split
  · intro failed
    rcases error_of_bind failed with published | ⟨services, -, failed⟩
    · exact publishedServices_ne_syntaxError _ _ offset published
    · cases failed
  · nofun

/-- A source is refused as a syntax error exactly if it is not parsed. -/
theorem analyze_eq_syntaxError_iff {source : Text} {fallback : String} {tree : Concrete}
    {offset : Int} : analyze source fallback tree = .error (.syntaxError offset) ↔
      parse source tree = .error (.syntaxError offset) := by
  constructor
  · intro failed
    rcases error_of_bind failed with refused | ⟨root, -, failed⟩
    · exact refused
    · rw [analyzeTree, outline_eq] at failed
      rcases error_of_bind failed with outlined | ⟨found, -, failed⟩
      · cases made : methodDecls source (LineIndex.ofText source)
            (root.findAll "method_declaration") with
        | error e =>
          rw [made] at outlined
          cases outlined
          exact absurd made (methodDecls_ne_syntaxError _ _ _ offset)
        | ok decls => rw [made] at outlined; cases outlined
      · rcases error_of_bind failed with served | ⟨service, -, failed⟩
        · exact absurd served (systemService?_ne_syntaxError _ _ _ _ _ offset)
        · cases failed
  · intro refused
    rw [analyze, refused]
    rfl

/-- The grammar rejects a text. -/
def Grammar.Rejects (grammar : Grammar) (t : Text) : Prop :=
  ∃ offset, parse t (grammar t) = .error (.syntaxError offset)

/-! ## Whole analyses -/

/-- A tree with tokens in the text is analysed. The calls are those of its method declarations,
which lie in the text. -/
theorem analyzeTree_ok {source : Text} (fallback : String) {root : Node}
    (inside : ∀ t ∈ root.tokens, t.Within source.length) :
    ∃ a, analyzeTree source fallback root = .ok a ∧
      (∀ m ∈ a.methods, m.Within source.length) ∧
      a.calls = callSites source (LineIndex.ofText source) a.methods := by
  obtain ⟨o, made, within⟩ := outline_ok fallback inside
  have positive : ∀ s ∈ callSites source (LineIndex.ofText source) o.methods, 1 ≤ s.line := by
    intro s member
    obtain ⟨m, declared, found⟩ := mem_callSites member
    have line := (located_of_mem_bodyCalls (within m declared) found).2.line
    omega
  obtain ⟨service, found⟩ := systemService?_ok source o.summary.className
    ((primaryClass? root).map (classHeader source)) o.methods positive
  refine ⟨⟨o.summary, o.methods, callSites source (LineIndex.ofText source) o.methods, service⟩,
    ?_, within, rfl⟩
  simp only [analyzeTree, made, bind, Except.bind, found]
  rfl

theorem analyze_ok {source : Text} (fallback : String) {tree : Concrete}
    (accepted : tree.label.hasError = false) (spans : tree.SpansWithin source) :
    ∃ a, analyze source fallback tree = .ok a ∧
      (∀ m ∈ a.methods, m.Within source.length) ∧
      a.calls = callSites source (LineIndex.ofText source) a.methods := by
  obtain ⟨root, read, inside⟩ := parse_ok accepted spans
  obtain ⟨a, analyzed, within⟩ := analyzeTree_ok fallback inside
  exact ⟨a, by rw [analyze, read]; exact analyzed, within⟩

theorem analyze_fault {source : Text} (fallback : String) {tree : Concrete}
    (faulty : tree.label.hasError = true) (spans : tree.SpansWithin source) :
    analyze source fallback tree =
      .error (.syntaxError (Text.charOfByte source tree.firstFaultByte.toNat)) := by
  rw [analyze, parse_fault faulty spans]
  rfl

/-- An accepted tree with spans inside the source is analysed, and the analysis keeps to the
coordinates of the source: its declarations and their bodies are nonempty pieces of the text, every
call site lies in a body and is where it says it is, and no two are at one offset. -/
theorem analyze_located {source : Text} (fallback : String) {tree : Concrete}
    (accepted : tree.label.hasError = false) (spans : tree.SpansWithin source) :
    ∃ a, analyze source fallback tree = .ok a ∧
      (∀ m ∈ a.methods, m.Within source.length) ∧
      (∀ s ∈ a.calls, s.Located source ∧ (∃ m ∈ a.methods, s.InBody m) ∧
        (enclosingMethod? a.methods s.offset).isSome) ∧
      (a.calls.map CallSite.offset).Nodup := by
  obtain ⟨a, analyzed, within, calls⟩ := analyze_ok fallback accepted spans
  refine ⟨a, analyzed, within, fun s member => ?_, ?_⟩
  · rw [calls] at member
    obtain ⟨m, declared, found⟩ := mem_callSites member
    obtain ⟨inBody, located⟩ := located_of_mem_bodyCalls (within m declared) found
    exact ⟨located, ⟨m, declared, inBody⟩, inBody.enclosed declared⟩
  · rw [calls]
    exact callSites_nodup source _ a.methods

/-- A leaf of a concrete tree. -/
def Concrete.leaf (kind : String) (field : Option String) (startByte endByte : Int) : Concrete :=
  mk { kind := kind, field := field, startByte := startByte, endByte := endByte } []

/-- A source whose first character is two bytes long. -/
def cutSource : Text := "é m()\x7bf();\x7d".toList

/-- A tree of `cutSource` in which the type of the method spans half of the first character, and a
leaf of its body spans nothing. -/
def cutTree : Concrete :=
  .mk { kind := "program", startByte := 0, endByte := 12 } [
    .mk { kind := "method_declaration", startByte := 1, endByte := 12 } [
      .leaf "type_identifier" (some "type") 1 2,
      .leaf "identifier" (some "name") 3 4,
      .mk { kind := "formal_parameters", field := some "parameters", startByte := 4, endByte := 6 }
        [.leaf "(" none 4 5, .leaf ")" none 5 6],
      .mk { kind := "block", field := some "body", startByte := 6, endByte := 12 }
        [.leaf "\x7b" none 6 7, .leaf ";" none 7 7, .leaf "call" none 7 10,
          .leaf "\x7d" none 11 12]]]

theorem analyze_located_cutTree :
    cutTree.label.hasError = false ∧ cutTree.SpansWithin cutSource ∧
      ∃ a, analyze cutSource "F" cutTree = .ok a ∧
        (∀ m ∈ a.methods, m.Within cutSource.length) ∧
        (∀ s ∈ a.calls, s.Located cutSource ∧ (∃ m ∈ a.methods, s.InBody m) ∧
          (enclosingMethod? a.methods s.offset).isSome) ∧
        (a.calls.map CallSite.offset).Nodup := by
  have spans : cutTree.SpansWithin cutSource := by decide
  exact ⟨rfl, spans, analyze_located "F" rfl spans⟩

/-- With spans inside the source, analysing fails exactly where the grammar marked a fault, and
then as a syntax error. A summary is always given, and an analysis always has its timeline. -/
theorem analyze_fails_iff_faulty {source : Text} (fallback : String) {tree : Concrete}
    (spans : tree.SpansWithin source) :
    (tree.label.hasError = true ↔
      ∃ offset, analyze source fallback tree = .error (.syntaxError offset)) ∧
    (tree.label.hasError = false ↔ ∃ a, analyze source fallback tree = .ok a) ∧
    (∃ summary, summarize source fallback tree = .ok summary) ∧
    ∀ a, analyze source fallback tree = .ok a → ∀ targets filePath,
      ∃ timeline, bootTimeline? targets filePath a.summary.className a.methods = .ok timeline := by
  have timelines (a : FileAnalysis) (targets : List String) (filePath : String) :=
    bootTimeline?_ok targets filePath a.summary.className a.methods
  cases marked : tree.label.hasError with
  | false =>
    obtain ⟨a, analyzed, -⟩ := analyze_ok fallback marked spans
    refine ⟨?_, ?_, ⟨a.summary, ?_⟩, fun a _ => timelines a⟩
    · simp [analyzed]
    · simp [analyzed]
    · rw [summarize, analyzed, summaryOr]
  | true =>
    have refused := analyze_fault fallback marked spans
    refine ⟨?_, ?_, ⟨ClassSummary.empty fallback, ?_⟩, fun a _ => timelines a⟩
    · simp [refused]
    · simp [refused]
    · rw [summarize, refused, summaryOr]

/-- A tree of `cutSource` with a fault inside the first character. -/
def faultyTree : Concrete :=
  .mk { kind := "program", startByte := 0, endByte := 12, hasError := true } [
    .mk { kind := "ERROR", startByte := 1, endByte := 12, isError := true, hasError := true } []]

theorem analyze_fails_faultyTree :
    (cutTree.SpansWithin cutSource ∧ ∃ a, analyze cutSource "F" cutTree = .ok a) ∧
      faultyTree.SpansWithin cutSource ∧
      ∃ offset, analyze cutSource "F" faultyTree = .error (.syntaxError offset) := by
  have spans : cutTree.SpansWithin cutSource := by decide
  have faultySpans : faultyTree.SpansWithin cutSource := by decide
  exact ⟨⟨spans, (analyze_fails_iff_faulty "F" spans).2.1.mp rfl⟩, faultySpans,
    (analyze_fails_iff_faulty "F" faultySpans).1.mp rfl⟩

end JavaSurvey
