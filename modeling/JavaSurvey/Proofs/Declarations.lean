import JavaSurvey.Proofs.Analysis
import JavaSurvey.Proofs.Syntax.Nesting

/-!
# Nested declarations

The methods of a file are listed in the order in which its tree is searched, which is not that of
the source. Both the cursor and the calls are given to the first method that holds them.

1. `methodDecl?_eq_some`: a declaration has the range of its node and the range of its body;
2. `analyze_inv`: the methods of an analysis are the declarations of the method nodes, in order;
3. `methods_outermostFirst`: where the leaves are in order, each method has in its span, or outside
   of it, all of each later one;
4. `OutermostFirst.outermost`: in such a list the first method that holds an offset is the outermost
   of those that do;
5. `analyze_methods_laminar`: all of this for the analysis of a source.
-/

namespace JavaSurvey

/-! ## Spans -/

namespace Span

/-- A span holds an offset, its end left out. -/
def Holds (s : Span) (offset : Int) : Prop :=
  s.start ≤ offset ∧ offset < s.stop

/-- A span is part of another. -/
def Inside (s t : Span) : Prop :=
  t.start ≤ s.start ∧ s.stop ≤ t.stop

/-- One of two spans ends before the other starts. -/
def Apart (s t : Span) : Prop :=
  s.stop ≤ t.start ∨ t.stop ≤ s.start

theorem Inside.refl (s : Span) : s.Inside s :=
  ⟨Int.le_refl _, Int.le_refl _⟩

theorem Apart.not_holds {s t : Span} (apart : s.Apart t) {offset : Int} (inS : s.Holds offset) :
    ¬ t.Holds offset := by
  intro inT
  obtain ⟨startS, stopS⟩ := inS
  obtain ⟨startT, stopT⟩ := inT
  rcases apart with before | after
  · exact absurd (Int.lt_of_lt_of_le stopS before) (Int.not_lt.mpr startT)
  · exact absurd (Int.lt_of_lt_of_le stopT after) (Int.not_lt.mpr startS)

end Span

/-! ## Declarations of nodes -/

theorem MethodDecl.check_eq_ok {summary : MethodSummary} {signature : String} {start stop : Int}
    {bodyStart bodyStop : Option Int} {m : MethodDecl}
    (made : check summary signature start stop bodyStart bodyStop = .ok m) :
    m.span.start = start ∧ m.span.stop = stop ∧ m.body.map Span.start = bodyStart ∧
      m.body.map Span.stop = bodyStop := by
  unfold check at made
  split at made
  · cases bodyStart with
    | none =>
      cases bodyStop with
      | none =>
        cases made
        exact ⟨rfl, rfl, rfl, rfl⟩
      | some b => cases made
    | some a =>
      cases bodyStop with
      | none => cases made
      | some b =>
        dsimp only at made
        split at made
        · cases made
          exact ⟨rfl, rfl, rfl, rfl⟩
        · cases made
  · cases made

theorem exists_of_map_eq_ok {α β : Type} {f : α → β} {result : Except Failure α} {y : β}
    (mapped : result.map f = .ok y) : ∃ x, result = .ok x ∧ f x = y := by
  cases result with
  | error e => cases mapped
  | ok x => exact ⟨x, rfl, Except.ok.inj mapped⟩

/-- The declaration of a node has its range, and the range of its body. -/
theorem methodDecl?_eq_some {source : Text} {lines : LineIndex} {method : Node} {m : MethodDecl}
    (made : methodDecl? source lines method = .ok (some m)) :
    method.range? = some (m.span.start, m.span.stop) ∧
      ∀ body, m.body = some body → bodyRange? method = some (body.start, body.stop) := by
  unfold methodDecl? at made
  split at made
  · next name parameters start stop _ range =>
    obtain ⟨checked, accepted, same⟩ := exists_of_map_eq_ok made
    cases same
    obtain ⟨rfl, rfl, bodyStart, bodyStop⟩ := MethodDecl.check_eq_ok accepted
    refine ⟨range, fun body isBody => ?_⟩
    rw [isBody, Option.map_some] at bodyStart bodyStop
    cases found : bodyRange? method with
    | none => rw [found] at bodyStart; cases bodyStart
    | some r =>
      rw [found, Option.map_some, Option.some.injEq] at bodyStart bodyStop
      rw [bodyStart, bodyStop]
  · cases made

/-- The declaration of a method node, if there is one. -/
def declarationOf? (source : Text) (lines : LineIndex) (method : Node) : Option MethodDecl :=
  (methodDecl? source lines method).toOption.join

theorem declarationOf?_eq_some {source : Text} {lines : LineIndex} {method : Node}
    {m : MethodDecl} :
    declarationOf? source lines method = some m ↔
      methodDecl? source lines method = .ok (some m) := by
  unfold declarationOf?
  cases methodDecl? source lines method with
  | error e => simp [Except.toOption]
  | ok found => simp [Except.toOption]

theorem methodDecls_eq_ok {source : Text} {lines : LineIndex} {nodes : List Node}
    {decls : List MethodDecl} (made : methodDecls source lines nodes = .ok decls) :
    decls = nodes.filterMap (declarationOf? source lines) := by
  induction nodes generalizing decls with
  | nil =>
    cases made
    rfl
  | cons node nodes ih =>
    rw [methodDecls] at made
    cases first : methodDecl? source lines node with
    | error e => rw [first] at made; cases made
    | ok found =>
      cases rest : methodDecls source lines nodes with
      | error e => rw [first, rest] at made; cases made
      | ok others =>
        rw [first, rest] at made
        cases made
        have decl : declarationOf? source lines node = found := by
          rw [declarationOf?, first]
          rfl
        rw [ih rest, List.filterMap_cons, decl]
        cases found <;> rfl

/-- What an analysis is made of: the declarations of the method nodes and the calls in their
bodies. -/
theorem analyze_inv {source : Text} {fallback : String} {tree : Concrete} {a : FileAnalysis}
    (analyzed : analyze source fallback tree = .ok a) :
    ∃ root, parse source tree = .ok root ∧
      a.methods = (root.findAll "method_declaration").filterMap
        (declarationOf? source (LineIndex.ofText source)) ∧
      a.calls = callSites source (LineIndex.ofText source) a.methods := by
  obtain ⟨root, read, onTree⟩ := analyze_eq_ok analyzed
  obtain ⟨made, calls, -⟩ := analyzeTree_inv onTree
  exact ⟨root, read, methodDecls_eq_ok made, calls⟩

/-- A source with aligned leaves is analysed, and its methods lie in it. -/
theorem analyze_aligned {source : Text} (fallback : String) {tree : Concrete}
    (accepted : tree.label.hasError = false)
    (aligned : ∀ l ∈ tree.writtenLeaves, l.Aligned source) :
    ∃ a, analyze source fallback tree = .ok a ∧ ∀ m ∈ a.methods, m.Within source.length := by
  obtain ⟨root, read, tokens⟩ := tree.toNode_ok aligned
  have inside : ∀ t ∈ root.tokens, t.Within source.length := by
    intro t member
    obtain ⟨l, isLeaf, rfl⟩ := tokens t member
    exact (Label.token_faithful (List.mem_filter.mp isLeaf).2 (aligned l isLeaf)).within
  obtain ⟨a, analyzed, within, -⟩ := analyzeTree_ok fallback inside
  refine ⟨a, ?_, within⟩
  rw [analyze, parse_accepted source accepted, read]
  exact analyzed

/-! ## The list of methods -/

/-- Each method has in its span, or outside of it, all of each later one. -/
def OutermostFirst (methods : List MethodDecl) : Prop :=
  methods.Pairwise fun m n => m.span.Apart n.span ∨ n.span.Inside m.span

namespace OutermostFirst

section

variable {methods : List MethodDecl} (nested : OutermostFirst methods)
include nested

theorem laminar {m n : MethodDecl} (inM : m ∈ methods) (inN : n ∈ methods) :
    m.span.Apart n.span ∨ m.span.Inside n.span ∨ n.span.Inside m.span := by
  obtain ⟨i, boundI, rfl⟩ := List.mem_iff_getElem.mp inM
  obtain ⟨j, boundJ, rfl⟩ := List.mem_iff_getElem.mp inN
  rcases Nat.lt_trichotomy i j with before | rfl | after
  · exact (List.pairwise_iff_getElem.mp nested i j boundI boundJ before).imp_right Or.inr
  · exact Or.inr (Or.inl (Span.Inside.refl _))
  · rcases List.pairwise_iff_getElem.mp nested j i boundJ boundI after with apart | inside
    · exact Or.inl apart.symm
    · exact Or.inr (Or.inl inside)

/-- A method comes before those that are properly inside it. -/
theorem lt_of_inside {i j : Nat} {m n : MethodDecl} (atI : methods[i]? = some m)
    (atJ : methods[j]? = some n) (nonempty : n.span.start < n.span.stop)
    (inside : n.span.Inside m.span) (proper : ¬ m.span.Inside n.span) : i < j := by
  rcases Nat.lt_trichotomy i j with before | rfl | after
  · exact before
  · cases atI.symm.trans atJ
    exact absurd inside proper
  · obtain ⟨boundI, rfl⟩ := List.getElem?_eq_some_iff.mp atI
    obtain ⟨boundJ, rfl⟩ := List.getElem?_eq_some_iff.mp atJ
    rcases List.pairwise_iff_getElem.mp nested j i boundJ boundI after with apart | around
    · -- The span inside holds its own start, so the spans are not apart.
      have held : methods[j].span.Holds methods[j].span.start := ⟨Int.le_refl _, nonempty⟩
      exact absurd ⟨inside.1, Int.lt_of_lt_of_le nonempty inside.2⟩ (apart.not_holds held)
    · exact absurd around proper

/-- The method at an offset where none ends is the outermost one that holds it. -/
theorem outermost {offset : Int} (held : ∃ m ∈ methods, m.span.Holds offset)
    (noEnd : ∀ m ∈ methods, m.span.stop ≠ offset) :
    ∃ m, methodAt? methods offset = some m ∧ m.span.Holds offset ∧
      ∀ n ∈ methods, n.span.Holds offset → n.span.Inside m.span := by
  have touched (m : MethodDecl) (member : m ∈ methods) :
      m.span.touches offset = true ↔ m.span.Holds offset := by
    rw [Span.touches_iff]
    exact and_congr_right fun _ =>
      ⟨fun le => Int.lt_iff_le_and_ne.mpr ⟨le, (noEnd m member).symm⟩, Int.le_of_lt⟩
  have found : (methodAt? methods offset).isSome := by
    rw [methodAt?, List.find?_isSome]
    obtain ⟨m, member, holds⟩ := held
    exact ⟨m, member, (touched m member).mpr holds⟩
  obtain ⟨m, first⟩ := Option.isSome_iff_exists.mp found
  obtain ⟨holds, before, after, rfl, untouched⟩ := List.find?_eq_some_iff_append.mp first
  refine ⟨m, first, (touched m (by simp)).mp holds, fun n member inN => ?_⟩
  rcases List.mem_append.mp member with early | later
  · have touchedToo := (touched n member).mpr inN
    have notTouched := untouched n early
    rw [touchedToo] at notTouched
    cases notTouched
  · cases later with
    | head => exact Span.Inside.refl m.span
    | tail _ later =>
      have fromM := List.pairwise_cons.mp (List.pairwise_append.mp nested).2.1
      rcases fromM.1 n later with apart | inside
      · exact absurd inN (apart.not_holds ((touched m (by simp)).mp holds))
      · exact inside

end

end OutermostFirst

/-- The methods of a source whose leaves are in order are listed outermost first. -/
theorem methods_outermostFirst {source : Text} {lines : LineIndex} {tree : Concrete} {root : Node}
    (parsed : parse source tree = .ok root) (inOrder : tree.LeavesInOrder source) :
    OutermostFirst ((root.findAll "method_declaration").filterMap
      (declarationOf? source lines)) := by
  have nests : (root.findAll "method_declaration").Pairwise Node.Nests := by
    rw [Node.findAll_eq]
    exact (Concrete.preorder_nests inOrder (toNode_of_parse parsed)).filter _
  refine List.pairwise_filterMap.mpr (nests.imp fun {n n'} nest m declared m' declared' => ?_)
  have range := (methodDecl?_eq_some (declarationOf?_eq_some.mp declared)).1
  have range' := (methodDecl?_eq_some (declarationOf?_eq_some.mp declared')).1
  rw [Span.Apart, Span.Inside, or_assoc]
  exact nest _ _ _ _ range range'

/-- The methods of an accepted source whose leaves are in order are apart or nested, and one comes
before those that are properly inside it. So the method at an offset that some method holds, and at
which none ends, is the outermost that holds it. -/
theorem analyze_methods_laminar {source : Text} (fallback : String) {tree : Concrete}
    (accepted : tree.label.hasError = false) (inOrder : tree.LeavesInOrder source) :
    ∃ a, analyze source fallback tree = .ok a ∧
      (∀ m ∈ a.methods, ∀ n ∈ a.methods,
        m.span.Apart n.span ∨ m.span.Inside n.span ∨ n.span.Inside m.span) ∧
      (∀ (i j : Nat) (m n : MethodDecl), a.methods[i]? = some m → a.methods[j]? = some n →
        n.span.Inside m.span → ¬ m.span.Inside n.span → i < j) ∧
      ∀ offset, (∃ m ∈ a.methods, m.span.Holds offset) →
        (∀ m ∈ a.methods, m.span.stop ≠ offset) →
        ∃ m, methodAt? a.methods offset = some m ∧ m.span.Holds offset ∧
          ∀ n ∈ a.methods, n.span.Holds offset → n.span.Inside m.span := by
  obtain ⟨a, analyzed, within⟩ := analyze_aligned fallback accepted inOrder.aligned
  obtain ⟨root, parsed, methods, -⟩ := analyze_inv analyzed
  have nested : OutermostFirst a.methods := by
    rw [methods]
    exact methods_outermostFirst parsed inOrder
  refine ⟨a, analyzed, fun m inM n inN => nested.laminar inM inN,
    fun i j m n atI atJ inside proper => ?_, fun offset held noEnd => nested.outermost held noEnd⟩
  have nonempty := (within n (List.mem_of_getElem? atJ)).nonempty
  exact nested.lt_of_inside atI atJ nonempty inside proper

/-- A method with a name of one letter and no parameters, and what stands in its body. -/
def voidMethod (first last : Int) (inside : List Concrete) : Concrete :=
  .mk { kind := "method_declaration", startByte := first, endByte := last } [
    .leaf "void_type" (some "type") first (first + 4),
    .leaf "identifier" (some "name") (first + 5) (first + 6),
    .mk { kind := "formal_parameters", field := some "parameters", startByte := first + 6,
          endByte := first + 8 }
      [.leaf "(" none (first + 6) (first + 7), .leaf ")" none (first + 7) (first + 8)],
    .mk { kind := "block", field := some "body", startByte := first + 9, endByte := last }
      (.leaf "\x7b" none (first + 9) (first + 10) :: inside ++ [.leaf "\x7d" none (last - 1) last])]

/-- A class with a name of one letter, and what stands in its body. -/
def plainClass (first last : Int) (inside : List Concrete) : Concrete :=
  .mk { kind := "class_declaration", startByte := first, endByte := last } [
    .leaf "class" none first (first + 5),
    .leaf "identifier" (some "name") (first + 6) (first + 7),
    .mk { kind := "class_body", field := some "body", startByte := first + 8, endByte := last }
      (.leaf "\x7b" none (first + 8) (first + 9) :: inside ++ [.leaf "\x7d" none (last - 1) last])]

/-- A source with a method in a local class, one in a member class, and one after that class. -/
def mixedSource : Text :=
  "//é\nclass A \x7b void a() \x7b class B \x7b void b() \x7b \x7d \x7d \x7d ".toList ++
    "class C \x7b void c() \x7b \x7d \x7d void d() \x7b \x7d \x7d".toList

/-- The tree of `mixedSource`. The methods of `A` share a slot, so the last of them comes before the
one of `C`. -/
def mixedTree : Concrete :=
  .mk { kind := "program", startByte := 0, endByte := 92 } [
    .leaf "line_comment" none 0 4,
    plainClass 5 92 [
      voidMethod 15 52 [plainClass 26 50 [voidMethod 36 48 []]],
      plainClass 53 77 [voidMethod 63 75 []],
      voidMethod 78 90 []]]

theorem mixedTree_inOrder : mixedTree.LeavesInOrder mixedSource :=
  ⟨by decide +kernel, by decide +kernel⟩

theorem analyze_methods_laminar_mixed :
    mixedTree.label.hasError = false ∧ mixedTree.LeavesInOrder mixedSource ∧
      ∃ a, analyze mixedSource "F" mixedTree = .ok a ∧
        a.methods.map (fun m => (m.name, m.span.start, m.span.stop)) =
          [("a", 14, 51), ("b", 35, 47), ("d", 77, 89), ("c", 62, 74)] ∧
        ∃ m, methodAt? a.methods 40 = some m ∧ m.span.Holds 40 ∧
          ∀ n ∈ a.methods, n.span.Holds 40 → n.span.Inside m.span := by
  obtain ⟨a, analyzed, -, -, outermost⟩ := analyze_methods_laminar "F" rfl mixedTree_inOrder
  have listed : (analyze mixedSource "F" mixedTree).map
      (fun a => a.methods.map fun m => (m.name, m.span.start, m.span.stop)) =
      .ok [("a", 14, 51), ("b", 35, 47), ("d", 77, 89), ("c", 62, 74)] := by decide +kernel
  rw [analyzed] at listed
  have spans : a.methods.map (fun m => (m.name, m.span.start, m.span.stop)) =
      [("a", 14, 51), ("b", 35, 47), ("d", 77, 89), ("c", 62, 74)] := Except.ok.inj listed
  refine ⟨rfl, mixedTree_inOrder, a, analyzed, spans, outermost 40 ?_ fun m member ends => ?_⟩
  · have isListed : ("b", 35, 47) ∈ a.methods.map fun m => (m.name, m.span.start, m.span.stop) := by
      rw [spans]
      decide
    obtain ⟨m, member, same⟩ := List.mem_map.mp isListed
    obtain ⟨-, start, stop⟩ : m.name = "b" ∧ m.span.start = 35 ∧ m.span.stop = 47 := by
      simpa using same
    exact ⟨m, member, by rw [start]; decide, by rw [stop]; decide⟩
  · have isListed := List.mem_map_of_mem (f := fun m => (m.name, m.span.start, m.span.stop)) member
    rw [spans, ends] at isListed
    simp at isListed

end JavaSurvey
