import JavaSurvey.CommandLine.Run
import JavaSurvey.Proofs.Declarations

/-!
# The cursor

A cursor is given by a line and a column. They become an offset, and the offset picks the first
method whose span holds it, where a span holds its end too.

1. `lineIndex_lines_agree`: the line index and the lines of a text are two views of the same lines,
   and the offset of a line and a column leads back to both;
2. `exists_methodAt?`: what it means for a method to be the one that is picked;
3. `callGraph?_rooted`: a cursor in a method picks one that it is in, unless another that ends there
   is listed before all of these;
4. `touching_graph_elsewhere`: between two methods without a character between them, the first is
   picked, and the cursor is in the second.
-/

namespace JavaSurvey

/-! ## Lines and columns -/

theorem Text.HasLine.offsetAt? {t : Text} {number start : Int} {line : Text}
    (isLine : t.HasLine number start line) (column : Int) :
    CommandRun.offsetAt? (LineIndex.ofText t) number column = some (start + column) := by
  unfold CommandRun.offsetAt?
  obtain ⟨inside, -⟩ := Array.getElem?_eq_some_iff.mp isLine.indexed
  have counted := isLine.counted
  rw [if_pos ⟨counted, by omega⟩, isLine.indexed, Option.map_some]

/-- The line index has a start for each line of a text. The line of an offset is one more than the
newlines before it, and the offset is at one of its columns. The offset of a line and a column leads
back to the line, and the line and the column of an offset lead back to the offset. -/
theorem lineIndex_lines_agree (t : Text) :
    (LineIndex.ofText t).size = (Text.lines t).length ∧
    (∀ offset : Int, 0 ≤ offset → offset ≤ t.length →
      ∃ number start line, (LineIndex.ofText t).lineOf offset = number ∧
        number = 1 + (t.take offset.toNat).count '\n' ∧
        1 ≤ number ∧ number ≤ (Text.lines t).length ∧ t.HasLine number start line ∧
        0 ≤ offset - start ∧ offset - start ≤ line.length ∧
        CommandRun.offsetAt? (LineIndex.ofText t) number (offset - start) = some offset) ∧
    ∀ number : Int, 1 ≤ number → number ≤ (Text.lines t).length →
      ∃ start line, t.HasLine number start line ∧
        ∀ column : Int, 0 ≤ column → column ≤ line.length →
          (LineIndex.ofText t).lineOf (start + column) = number ∧
          CommandRun.offsetAt? (LineIndex.ofText t) number column = some (start + column) := by
  refine ⟨LineIndex.size_ofText t, ?_, ?_⟩
  · intro offset nonneg inside
    obtain ⟨start, line, isLine, after, before⟩ := Text.exists_hasLine_lineOf nonneg inside
    refine ⟨_, start, line, rfl, LineIndex.lineOf_ofText t offset, isLine.counted,
      isLine.number_le, isLine, after, before, ?_⟩
    rw [isLine.offsetAt?, Int.add_comm, Int.sub_add_cancel]
  · intro number counted bounded
    obtain ⟨start, line, isLine⟩ := Text.exists_hasLine counted bounded
    refine ⟨start, line, isLine, ?_⟩
    intro column nonneg inside
    exact ⟨isLine.lineOf nonneg inside, isLine.offsetAt? column⟩

/-! ## Methods -/

/-- A span holds an offset, its end included, if it holds it or ends there. -/
theorem Span.touches_iff_holds_or {s : Span} {offset : Int} :
    s.touches offset = true ↔ s.Holds offset ∨ s.stop = offset := by
  rw [touches_iff]
  constructor
  · rintro ⟨after, before⟩
    rcases Int.lt_or_eq_of_le before with inside | atEnd
    · exact .inl ⟨after, inside⟩
    · exact .inr atEnd.symm
  · rintro (⟨after, inside⟩ | rfl)
    · exact ⟨after, Int.le_of_lt inside⟩
    · exact ⟨s.ordered, Int.le_refl _⟩

/-- A method that ends at an offset is listed before all that hold it. -/
def EndsFirst (methods : List MethodDecl) (offset : Int) : Prop :=
  ∃ (i : Nat) (m : MethodDecl), methods[i]? = some m ∧ m.span.stop = offset ∧
    ∀ (j : Nat) (n : MethodDecl), methods[j]? = some n → n.span.Holds offset → i < j

/-- The method at an offset is the first in the list that holds it or ends there. -/
structure PickedAt (methods : List MethodDecl) (offset : Int) (i : Nat) (m : MethodDecl) :
    Prop where
  listed : methods[i]? = some m
  picked : methodAt? methods offset = some m
  touches : m.span.touches offset = true
  first : ∀ (j : Nat) (n : MethodDecl), methods[j]? = some n → n.span.touches offset = true → i ≤ j

/-- Where some method holds an offset, one is picked. -/
theorem exists_methodAt? {methods : List MethodDecl} {offset : Int}
    (held : ∃ n ∈ methods, n.span.Holds offset) : ∃ i m, PickedAt methods offset i m := by
  have found : (methodAt? methods offset).isSome := by
    unfold methodAt?
    rw [List.find?_isSome]
    obtain ⟨n, member, holds⟩ := held
    exact ⟨n, member, Span.touches_iff_holds_or.mpr (.inl holds)⟩
  obtain ⟨m, picked⟩ := Option.isSome_iff_exists.mp found
  obtain ⟨touches, i, bound, rfl, untouched⟩ := List.find?_eq_some_iff_getElem.mp picked
  refine ⟨i, methods[i], List.getElem?_eq_getElem bound, picked, touches, ?_⟩
  intro j n listed touched
  apply Nat.le_of_not_lt
  intro earlier
  obtain ⟨_, rfl⟩ := List.getElem?_eq_some_iff.mp listed
  have notTouched := untouched j earlier
  rw [touched] at notTouched
  cases notTouched

namespace PickedAt

variable {methods : List MethodDecl} {offset : Int} {i : Nat} {m : MethodDecl}
  (pick : PickedAt methods offset i m)

include pick

/-- A method that is picked and does not hold the offset is before all that do. -/
theorem lt_of_holds (outside : ¬ m.span.Holds offset) {j : Nat} {n : MethodDecl}
    (listed : methods[j]? = some n) (holds : n.span.Holds offset) : i < j := by
  have upTo := pick.first j n listed (Span.touches_iff_holds_or.mpr (.inl holds))
  apply Nat.lt_of_le_of_ne upTo
  rintro rfl
  cases pick.listed.symm.trans listed
  exact outside holds

/-- The method that is picked holds the offset unless another that ends there comes first. -/
theorem holds_iff : m.span.Holds offset ↔ ¬ EndsFirst methods offset := by
  constructor
  · rintro holds ⟨k, n, listed, ends, first⟩
    have before := first i m pick.listed holds
    have upTo := pick.first k n listed (Span.touches_iff_holds_or.mpr (.inr ends))
    exact absurd before (Nat.not_lt.mpr upTo)
  · intro noneFirst
    rcases Span.touches_iff_holds_or.mp pick.touches with holds | ends
    · exact holds
    · apply Classical.byContradiction
      intro outside
      exact noneFirst ⟨i, m, pick.listed, ends, fun j n => pick.lt_of_holds outside⟩

/-- Outermost methods come first, so a method that is picked and does not hold the offset ends where
those that hold it start. -/
theorem start_eq (nested : OutermostFirst methods) (outside : ¬ m.span.Holds offset)
    {n : MethodDecl} (member : n ∈ methods) (holds : n.span.Holds offset) :
    n.span.start = offset := by
  have ends := (Span.touches_iff_holds_or.mp pick.touches).resolve_left outside
  obtain ⟨j, listed⟩ := List.mem_iff_getElem?.mp member
  have before := pick.lt_of_holds outside listed holds
  obtain ⟨boundI, isM⟩ := List.getElem?_eq_some_iff.mp pick.listed
  obtain ⟨boundJ, isN⟩ := List.getElem?_eq_some_iff.mp listed
  have apart := List.pairwise_iff_getElem.mp nested i j boundI boundJ before
  rw [isM, isN] at apart
  have ordered := m.span.ordered
  obtain ⟨after, inside⟩ := holds
  rcases apart with (first | last) | ⟨-, within⟩
  · exact Int.le_antisymm after (ends ▸ first)
  · exact absurd (Int.lt_of_lt_of_le inside last) (Int.not_lt.mpr (ends ▸ ordered))
  · exact absurd (Int.lt_of_lt_of_le inside within) (Int.not_lt.mpr (Int.le_of_eq ends))

end PickedAt

/-- The call graph of a method of an analysed file. -/
def FileAnalysis.graphOf (a : FileAnalysis) (filePath : String) (m : MethodDecl) : CallGraph where
  method := m.label a.summary.className
  callers := callers a.summary.className filePath a.methods a.calls m
  callees := callees a.summary.className filePath a.methods a.calls m

theorem FileAnalysis.callGraph?_eq (a : FileAnalysis) (filePath : String) (offset : Int) :
    a.callGraph? filePath offset = (methodAt? a.methods offset).map (a.graphOf filePath) :=
  rfl

/-- The call graph at an offset that some method holds is that of a method that holds it or ends
there. It holds it unless one that ends there is listed before all that hold it. Where the leaves
are in order, this happens only if all of these start at the offset, right where the other ends. -/
theorem callGraph?_rooted {source : Text} {fallback : String} {tree : Concrete} {a : FileAnalysis}
    (analyzed : analyze source fallback tree = .ok a) (filePath : String) {offset : Int}
    (held : ∃ n ∈ a.methods, n.span.Holds offset) :
    ∃ m ∈ a.methods, a.callGraph? filePath offset = some (a.graphOf filePath m) ∧
      (m.span.Holds offset ∨ m.span.stop = offset) ∧
      (m.span.Holds offset ↔ ¬ EndsFirst a.methods offset) ∧
      (tree.LeavesInOrder source → ¬ m.span.Holds offset →
        ∀ n ∈ a.methods, n.span.Holds offset → n.span.start = offset) := by
  obtain ⟨i, m, pick⟩ := exists_methodAt? held
  refine ⟨m, List.mem_of_getElem? pick.listed, ?_, Span.touches_iff_holds_or.mp pick.touches,
    pick.holds_iff, ?_⟩
  · rw [a.callGraph?_eq, pick.picked, Option.map_some]
  · intro inOrder outside n member holds
    obtain ⟨root, parsed, methods, -⟩ := analyze_inv analyzed
    have nested : OutermostFirst a.methods := by
      rw [methods]
      exact methods_outermostFirst parsed inOrder
    exact pick.start_eq nested outside member holds

/-- A class with two methods and no character between them. -/
def touchingSource : Text :=
  "class A \x7b void a() \x7b \x7dvoid b() \x7b \x7d \x7d".toList

/-- The tree of `touchingSource`. -/
def touchingTree : Concrete :=
  .mk { kind := "program", startByte := 0, endByte := 36 }
    [plainClass 0 36 [voidMethod 10 22 [], voidMethod 22 34 []]]

theorem touchingTree_inOrder : touchingTree.LeavesInOrder touchingSource :=
  ⟨by decide +kernel, by decide +kernel⟩

/-- The methods of `touchingSource`, of which the first ends where the second starts. -/
theorem touchingTree_analyzed :
    ∃ a m n, analyze touchingSource "A" touchingTree = .ok a ∧ a.methods = [m, n] ∧
      m.label a.summary.className = "A.a(0)" ∧ m.span = ⟨10, 22, by decide⟩ ∧
      n.label a.summary.className = "A.b(0)" ∧ n.span = ⟨22, 34, by decide⟩ := by
  have listed : (analyze touchingSource "A" touchingTree).map (fun a => a.methods.map fun m =>
      (m.label a.summary.className, m.span)) =
      .ok [("A.a(0)", ⟨10, 22, by decide⟩), ("A.b(0)", ⟨22, 34, by decide⟩)] := by
    decide +kernel
  obtain ⟨a, analyzed, methods⟩ := exists_of_map_eq_ok listed
  obtain ⟨m, rest, parts, first, others⟩ := List.map_eq_cons_iff.mp methods
  obtain ⟨n, rfl, second⟩ := List.map_eq_singleton_iff.mp others
  obtain ⟨labelM, spanM⟩ := Prod.mk.inj first
  obtain ⟨labelN, spanN⟩ := Prod.mk.inj second
  exact ⟨a, m, n, analyzed, parts, labelM, spanM, labelN, spanN⟩

/-- Before the end of the first method the graph is that of a method that holds the offset. At its
end it is that of a method that ends there, and the one that holds the offset starts there. -/
theorem callGraph?_rooted_touching :
    touchingTree.LeavesInOrder touchingSource ∧
      ∃ a, analyze touchingSource "A" touchingTree = .ok a ∧
        (∃ m ∈ a.methods, a.callGraph? "A.java" 21 = some (a.graphOf "A.java" m) ∧
          m.span.Holds 21) ∧
        ∃ m ∈ a.methods, a.callGraph? "A.java" 22 = some (a.graphOf "A.java" m) ∧
          m.span.stop = 22 ∧ ∀ n ∈ a.methods, n.span.Holds 22 → n.span.start = 22 := by
  obtain ⟨a, m, n, analyzed, methods, -, spanM, -, spanN⟩ := touchingTree_analyzed
  have inM : m ∈ a.methods := by rw [methods]; exact List.mem_cons_self
  have inN : n ∈ a.methods := by rw [methods]; exact List.mem_cons_of_mem _ List.mem_cons_self
  have holdsM : m.span.Holds 21 := by rw [spanM]; exact ⟨by decide, by decide⟩
  have holdsN : n.span.Holds 22 := by rw [spanN]; exact ⟨by decide, by decide⟩
  refine ⟨touchingTree_inOrder, a, analyzed, ?_, ?_⟩
  · obtain ⟨k, listed, graph, -, holds, -⟩ := callGraph?_rooted analyzed "A.java" ⟨m, inM, holdsM⟩
    refine ⟨k, listed, graph, holds.mpr ?_⟩
    rintro ⟨i, e, isListed, ends, -⟩
    have member := List.mem_of_getElem? isListed
    rw [methods] at member
    rcases List.mem_pair.mp member with rfl | rfl
    · rw [spanM] at ends
      exact absurd ends (by decide)
    · rw [spanN] at ends
      exact absurd ends (by decide)
  · obtain ⟨k, listed, graph, place, holds, starts⟩ :=
      callGraph?_rooted analyzed "A.java" ⟨n, inN, holdsN⟩
    have endsFirst : EndsFirst a.methods 22 := by
      refine ⟨0, m, by rw [methods]; rfl, by rw [spanM], ?_⟩
      intro j e isListed inside
      apply Nat.pos_of_ne_zero
      rintro rfl
      rw [methods] at isListed
      cases isListed
      rw [spanM] at inside
      exact absurd inside.2 (by decide)
    have outside : ¬ k.span.Holds 22 := fun inside => holds.mp inside endsFirst
    exact ⟨k, listed, graph, place.resolve_left outside, starts touchingTree_inOrder outside⟩

/-- At the start of the second method the graph is not that of a method that holds the offset. -/
theorem touching_graph_elsewhere :
    ∃ a, analyze touchingSource "A" touchingTree = .ok a ∧
      (∃ n ∈ a.methods, n.span.Holds 22) ∧
      ¬ ∃ m ∈ a.methods, m.span.Holds 22 ∧
        a.callGraph? "A.java" 22 = some (a.graphOf "A.java" m) := by
  obtain ⟨a, m, n, analyzed, methods, labelM, spanM, labelN, spanN⟩ := touchingTree_analyzed
  have picked : methodAt? a.methods 22 = some m := by
    unfold methodAt?
    rw [methods, List.find?_cons_of_pos]
    rw [spanM]
    decide
  refine ⟨a, analyzed, ⟨n, by rw [methods]; simp, by rw [spanN]; exact ⟨by decide, by decide⟩⟩, ?_⟩
  rintro ⟨k, listed, holds, graph⟩
  rw [a.callGraph?_eq, picked, Option.map_some] at graph
  have sameLabel := congrArg CallGraph.method (Option.some.inj graph)
  change m.label a.summary.className = k.label a.summary.className at sameLabel
  rw [methods] at listed
  rcases List.mem_pair.mp listed with rfl | rfl
  · rw [spanM] at holds
    exact absurd holds.2 (by decide)
  · rw [labelM, labelN] at sameLabel
    exact absurd sameLabel (by decide)

end JavaSurvey
