import JavaSurvey.Proofs.Declarations
import JavaSurvey.Proofs.Syntax.Spans
import JavaSurvey.Proofs.Text.Blanks

/-!
# Reported services

Whether a file is a system service is read off the text of the header of its first class
declaration. The name that it is reported under is the name of the file.

1. `isServiceHeader_iff`: a header speaks of a service if it has the two words with blanks between
   them, wherever they stand in it;
2. `PlainClause.classHeader_eq`: the header of a class has in it the clause that names its
   superclass;
3. `PlainClause.isServiceHeader_iff`: if there is no other `extends` in a header, what counts is how
   the name of the superclass begins;
4. `analyze_service_iff`: when a service is reported, and under which name;
5. `foreignName_service`: a class whose name is not an identifier is reported under another one.
-/

namespace JavaSurvey

/-! ## Words of a header -/

theorem startsWithWords_iff {word next t : Text} (solid : next.Solid) :
    startsWithWords word next t = true ↔
      ∃ blanks back, t = word ++ blanks ++ next ++ back ∧ blanks ≠ [] ∧
        ∀ c ∈ blanks, Text.isBlank c = true := by
  simp only [startsWithWords, Bool.and_eq_true, List.isPrefixOf_iff_prefix]
  constructor
  · rintro ⟨⟨rest, rfl⟩, blank, ⟨back, parts⟩⟩
    rw [List.drop_left] at blank parts
    refine ⟨rest.takeWhile Text.isBlank, back, ?_, ?_, fun c => List.mem_takeWhile_imp⟩
    · rw [List.append_assoc, List.append_assoc, parts, Text.trimLeft,
        List.takeWhile_append_dropWhile]
    · cases rest with
      | nil => cases blank
      | cons c rest => simpa using blank
  · rintro ⟨blanks, back, rfl, nonempty, blank⟩
    refine ⟨⟨_, by rw [List.append_assoc, List.append_assoc]⟩, ?_⟩
    rw [List.append_assoc, List.append_assoc, List.drop_left]
    refine ⟨?_, ?_⟩
    · cases blanks with
      | nil => exact absurd rfl nonempty
      | cons c blanks => simpa using blank c List.mem_cons_self
    · rw [Text.trimLeft_of_blanks blank, Text.trimLeft_of_solid solid]
      exact List.prefix_append next back

theorem solidService : Text.Solid "SystemService".toList := by
  decide +kernel

theorem serviceName_all : "SystemService".toList.all inName = true := by
  decide +kernel

/-- A header speaks of a service if it has `extends` and `SystemService` with blanks between. -/
theorem isServiceHeader_iff {header : Text} :
    isServiceHeader header = true ↔
      Text.HasWords "extends".toList "SystemService".toList header := by
  rw [isServiceHeader, Text.anyRest_iff]
  constructor
  · rintro ⟨front, rest, rfl, found⟩
    obtain ⟨blanks, back, rfl, nonempty, blank⟩ := (startsWithWords_iff solidService).mp found
    exact ⟨front, blanks, back, by simp only [List.append_assoc], nonempty, blank⟩
  · rintro ⟨front, blanks, back, rfl, nonempty, blank⟩
    refine ⟨front, _, List.append_assoc _ _ _, (startsWithWords_iff solidService).mpr ?_⟩
    exact ⟨blanks, back, rfl, nonempty, blank⟩

/-! ## Headers -/

/-- The tokens of a node are pieces of a source, and no two of them overlap. -/
structure Node.WrittenIn (n : Node) (source : Text) : Prop where
  faithful : ∀ t ∈ n.tokens, t.Faithful source
  apart : ∀ t ∈ n.tokens, ∀ u ∈ n.tokens, t.Apart u

theorem Node.WrittenIn.below {root n : Node} {source : Text} (written : root.WrittenIn source)
    (below : n ∈ root.preorder) : n.WrittenIn source := by
  have inRoot (t : Token) (member : t ∈ n.tokens) : t ∈ root.tokens :=
    Node.mem_tokens_of_mem_preorder below member
  exact ⟨fun t member => written.faithful t (inRoot t member),
    fun t member u member' => written.apart t (inRoot t member) u (inRoot u member')⟩

theorem Concrete.LeavesInOrder.writtenIn {source : Text} {tree : Concrete} {root : Node}
    (inOrder : tree.LeavesInOrder source) (parsed : parse source tree = .ok root) :
    root.WrittenIn source := by
  obtain ⟨root', read, leaves⟩ := tree.toNode_ok inOrder.aligned
  cases read.symm.trans (toNode_of_parse parsed)
  have written {l : Label} (isLeaf : l ∈ tree.writtenLeaves) : l.isWritten = true :=
    (List.mem_filter.mp isLeaf).2
  have apart : (tree.writtenLeaves.map (Label.token source)).Pairwise Token.Apart :=
    List.pairwise_map.mpr <| inOrder.apart.imp_of_mem fun isLeaf _ ends =>
      .inr (.inl (token_last_lt (written isLeaf) (inOrder.aligned _ isLeaf) ends))
  refine ⟨fun t member => ?_, fun t member u member' => ?_⟩
  · obtain ⟨l, isLeaf, rfl⟩ := leaves t member
    exact Label.token_faithful (written isLeaf) (inOrder.aligned l isLeaf)
  · obtain ⟨l, isLeaf, rfl⟩ := leaves t member
    obtain ⟨k, isLeaf', rfl⟩ := leaves u member'
    exact List.Pairwise.forall_of_forall (fun t _ => .inl rfl) apart (List.mem_map_of_mem isLeaf)
      (List.mem_map_of_mem isLeaf')

namespace Node

/-- The tokens of a class declaration without its body. -/
def headerTokens (n : Node) : List Token :=
  tokensOf (n.children.filter (·.slot != "body"))

theorem mem_tokens_of_mem_header {n : Node} {t : Token} (member : t ∈ n.headerTokens) :
    t ∈ n.tokens := by
  rw [headerTokens, tokensOf_eq] at member
  rw [tokens_eq]
  obtain ⟨e, inHeader, inE⟩ := Element.mem_tokensAll.mp member
  exact Element.mem_tokensAll.mpr ⟨e, (List.mem_filter.mp inHeader).1, inE⟩

theorem mem_header_of_mem_slot {n : Node} {slot : String} {t : Token} (isHeader : slot ≠ "body")
    (member : t ∈ n.slotTokens slot) : t ∈ n.headerTokens := by
  rw [slotTokens, tokensOf_eq] at member
  rw [headerTokens, tokensOf_eq]
  obtain ⟨e, inSlot, inE⟩ := Element.mem_tokensAll.mp member
  obtain ⟨child, isSlot⟩ := List.mem_filter.mp inSlot
  refine Element.mem_tokensAll.mpr ⟨e, List.mem_filter.mpr ⟨child, ?_⟩, inE⟩
  rw [beq_iff_eq.mp isSlot]
  simpa using isHeader

end Node

/-- A class has a clause that names its superclass: the keyword, blanks, and a type that starts with
a token without blanks, which no further character of a name follows. The keyword stands nowhere
else in the header of the class. -/
structure PlainClause (source : Text) (n : Node) (keyword type : Token) : Prop where
  clause : (n.slotTokens "superclass").take 2 = [keyword, type]
  isKeyword : keyword.image = "extends"
  gap : keyword.last + 1 < type.start
  blank : ∀ c ∈ Text.slice source (keyword.last + 1) type.start, Text.isBlank c = true
  solid : Text.Solid type.image.toList
  ends : ∀ c, source[(type.last + 1).toNat]? = some c → inName c = false
  once : Text.OccursOnce "extends".toList (classHeader source n)

namespace PlainClause

variable {source : Text} {n : Node} {keyword type : Token}

theorem mem_header (plain : PlainClause source n keyword type) :
    ∀ t ∈ [keyword, type], t ∈ n.headerTokens := by
  intro t listed
  rw [← plain.clause] at listed
  exact Node.mem_header_of_mem_slot (by decide) (List.mem_of_mem_take listed)

theorem text (plain : PlainClause source n keyword type) (faithfulKeyword : keyword.Faithful source)
    (faithfulType : type.Faithful source) :
    Text.slice source keyword.start (type.last + 1) =
      "extends".toList ++ Text.slice source (keyword.last + 1) type.start ++
        type.image.toList := by
  have gap := plain.gap
  obtain ⟨nonneg, ordered, -⟩ := faithfulKeyword.within
  obtain ⟨-, orderedType, bounded⟩ := faithfulType.within
  have afterKeyword := Text.slice_split source nonneg (by omega : keyword.start ≤ keyword.last + 1)
    (by omega : keyword.last + 1 ≤ type.last + 1) (by omega)
  have beforeType := Text.slice_split source (by omega : 0 ≤ keyword.last + 1) (Int.le_of_lt gap)
    (by omega : type.start ≤ type.last + 1) (by omega)
  rw [afterKeyword, beforeType, faithfulKeyword.image, faithfulType.image, plain.isKeyword,
    List.append_assoc]

variable (plain : PlainClause source n keyword type) (written : n.WrittenIn source)

include plain written

/-- A header has in it the clause that names the superclass. -/
theorem classHeader_eq :
    ∃ front gap back,
      classHeader source n =
        front ++ ("extends".toList ++ (gap ++ (type.image.toList ++ back))) ∧
      gap ≠ [] ∧ (∀ c ∈ gap, Text.isBlank c = true) ∧
      back <+: source.drop (type.last + 1).toNat := by
  have inTokens (t : Token) (member : t ∈ n.headerTokens) : t ∈ n.tokens :=
    Node.mem_tokens_of_mem_header member
  have isKeyword := plain.mem_header keyword (by simp)
  have isType := plain.mem_header type (by simp)
  have faithfulKeyword := written.faithful keyword (inTokens keyword isKeyword)
  have faithfulType := written.faithful type (inTokens type isType)
  have gap := plain.gap
  obtain ⟨nonneg, ordered, -⟩ := faithfulKeyword.within
  obtain ⟨-, orderedType, bounded⟩ := faithfulType.within
  obtain ⟨front, back, spanned, follows⟩ := spannedText_between
    (fun t member => (written.faithful t (inTokens t member)).within)
    (fun t member u member' => written.apart t (inTokens t member) u (inTokens u member'))
    isKeyword isType (by omega)
  have solidKeyword : Text.Solid "extends".toList := by decide +kernel
  refine ⟨Text.trimLeft front, _, Text.trimRight back, ?_,
    Text.slice_ne_nil source (by omega) gap (by omega), plain.blank,
    (Text.trimRight_prefix back).trans follows⟩
  have header : classHeader source n = spannedText source n.headerTokens := rfl
  rw [header, spanned, plain.text faithfulKeyword faithfulType,
    Text.trim_between solidKeyword plain.solid]
  simp only [List.append_assoc]

/-- Where `extends` stands once in a header, the header speaks of a service exactly if the name of
the superclass begins with `SystemService`. -/
theorem isServiceHeader_iff :
    isServiceHeader (classHeader source n) = true ↔
      "SystemService".toList <+: type.image.toList := by
  obtain ⟨front, gap, back, header, nonempty, blankGap, follows⟩ :=
    plain.classHeader_eq written
  rw [JavaSurvey.isServiceHeader_iff]
  constructor
  · rintro ⟨front', blanks, back', parts, -, blank⟩
    simp only [List.append_assoc] at parts
    obtain ⟨-, rest⟩ := plain.once.unique header parts
    have same := congrArg Text.trimLeft rest
    rw [Text.trimLeft_of_blanks blankGap, Text.trimLeft_of_solid plain.solid,
      Text.trimLeft_of_blanks blank, Text.trimLeft_of_solid solidService] at same
    rcases List.append_eq_append_iff.mp same with ⟨more, word, begins⟩ | ⟨more, name, -⟩
    · cases more with
      | nil => exact ⟨[], by rw [word]; simp⟩
      | cons c more =>
        -- The word goes on after the token, but no character of a name is there.
        obtain ⟨later, drops⟩ := follows
        have next : source[(type.last + 1).toNat]? = some c := by
          rw [← List.head?_drop, ← drops, begins]
          rfl
        have inWord : c ∈ "SystemService".toList := by rw [word]; simp
        have isName := List.all_eq_true.mp serviceName_all c inWord
        rw [plain.ends c next] at isName
        cases isName
    · exact ⟨more, name.symm⟩
  · rintro ⟨more, begins⟩
    refine ⟨front, gap, more ++ back, ?_, nonempty, blankGap⟩
    rw [header, ← begins]
    simp only [List.append_assoc]

end PlainClause

/-! ## Reports -/

/-- The class declarations of a tree, each before those below it. -/
def Node.classes (root : Node) : List Node :=
  root.preorder.filter (·.name = "class_declaration")

theorem primaryClass?_eq (root : Node) : primaryClass? root = root.classes.head? := by
  rw [primaryClass?, Node.find?_eq_head?, Node.findAll_eq, Node.classes]

theorem classNames_eq (root : Node) : classNames root = root.classes.filterMap Node.className? := by
  rw [classNames, Node.findAll_eq, Node.classes]

/-- A service is reported by its header, under the name that is given. -/
theorem systemService?_eq_ok {source : Text} {className : String} {header : Option Text}
    {methods : List MethodDecl} {calls : List CallSite} {service : Option SystemService}
    (made : systemService? source className header methods calls = .ok service) :
    service.isSome = header.any isServiceHeader ∧ ∀ s ∈ service, s.className = className := by
  unfold systemService? at made
  cases speaks : header.any isServiceHeader with
  | false =>
    rw [speaks, if_neg (by simp)] at made
    cases made
    exact ⟨rfl, fun s member => nomatch member⟩
  | true =>
    rw [speaks, if_pos rfl] at made
    cases published : publishedServices (Text.lines source)
        (calls.filter fun call => publishCalls.contains call.name) with
    | error e => rw [published] at made; cases made
    | ok services =>
      rw [published] at made
      cases made
      refine ⟨rfl, fun s member => ?_⟩
      cases member
      rfl

/-- The name of a file is that of its first class whose name is an identifier. -/
theorem fileClass_of_classes {root n : Node} {later : List Node}
    (classes : root.classes = n :: later) (fallback : String) :
    n.className? = some (fileClass root fallback) ∨ (n.className? = none ∧
      fileClass root fallback = (later.filterMap Node.className?).head?.getD fallback) := by
  rw [fileClass, classNames_eq, classes]
  cases named : n.className? with
  | none => exact .inr ⟨rfl, by rw [List.filterMap_cons_none named]⟩
  | some name => exact .inl (by rw [List.filterMap_cons_some named]; rfl)

/-- A service is reported exactly if the header of the first class declaration has `extends` and
`SystemService` with blanks between. It is reported under the name of that class or, if that is not
an identifier, under that of the next class whose name is, and under the fallback if there is none.
Where the leaves are in order and the header has `extends` only in the clause that names the
superclass, a service is reported exactly if the superclass has a name that begins with
`SystemService`. -/
theorem analyze_service_iff {source : Text} {fallback : String} {tree : Concrete}
    {a : FileAnalysis} (analyzed : analyze source fallback tree = .ok a) :
    ∃ root, parse source tree = .ok root ∧
      (a.service.isSome = true ↔ ∃ n later, root.classes = n :: later ∧
        Text.HasWords "extends".toList "SystemService".toList (classHeader source n)) ∧
      ∀ n later, root.classes = n :: later →
        (∀ s ∈ a.service, n.className? = some s.className ∨ (n.className? = none ∧
          s.className = (later.filterMap Node.className?).head?.getD fallback)) ∧
        (tree.LeavesInOrder source → ∀ keyword type, PlainClause source n keyword type →
          (a.service.isSome = true ↔ "SystemService".toList <+: type.image.toList)) := by
  unfold analyze at analyzed
  cases parsed : parse source tree with
  | error e => rw [parsed] at analyzed; cases analyzed
  | ok root =>
    rw [parsed] at analyzed
    have onTree : analyzeTree source fallback root = .ok a := analyzed
    obtain ⟨-, -, -, made⟩ := analyzeTree_inv onTree
    obtain ⟨isSome, named⟩ := systemService?_eq_ok made
    rw [primaryClass?_eq] at isSome
    refine ⟨root, rfl, ?_, fun n later classes => ⟨fun s member => ?_, ?_⟩⟩
    · rw [isSome]
      cases classes : root.classes with
      | nil => simp
      | cons n later => simp [isServiceHeader_iff]
    · rw [named s member]
      exact fileClass_of_classes classes fallback
    · intro inOrder keyword type plain
      have isClass : n ∈ root.classes := by rw [classes]; exact List.mem_cons_self
      have written := (inOrder.writtenIn parsed).below (List.mem_filter.mp isClass).1
      rw [isSome, classes]
      exact plain.isServiceHeader_iff written

/-! ## Two services -/

/-- A class with a superclass and an empty body. The names of both have the given sizes in bytes. -/
def emptySubclass (first name base : Int) : Concrete :=
  let clause := first + name + 7
  let body := clause + base + 9
  .mk { kind := "class_declaration", startByte := first, endByte := body + 3 } [
    .leaf "class" none first (first + 5),
    .leaf "identifier" (some "name") (first + 6) (first + 6 + name),
    .mk { kind := "superclass", field := some "superclass", startByte := clause,
          endByte := clause + 8 + base }
      [.leaf "extends" none clause (clause + 7),
       .leaf "type_identifier" none (clause + 8) (clause + 8 + base)],
    .mk { kind := "class_body", field := some "body", startByte := body, endByte := body + 3 }
      [.leaf "\x7b" none body (body + 1), .leaf "\x7d" none (body + 2) (body + 3)]]

/-- The texts of the tokens of a slot. -/
def Node.slotImages (n : Node) (slot : String) : List String :=
  (n.slotTokens slot).map Token.image

/-- A class whose superclass has a longer name than a service. -/
def baseSource : Text :=
  "class A extends SystemServiceBase \x7b \x7d".toList

/-- The tree of `baseSource`. -/
def baseTree : Concrete :=
  .mk { kind := "program", startByte := 0, endByte := 37 } [emptySubclass 0 1 17]

theorem baseTree_inOrder : baseTree.LeavesInOrder baseSource :=
  ⟨by decide +kernel, by decide +kernel⟩

/-- The keyword and the superclass in `baseSource`. -/
def baseClause : Token × Token :=
  (⟨"extends", 8, some 14⟩, ⟨"SystemServiceBase", 16, some 32⟩)

theorem baseTree_classes :
    ∃ root n, parse baseSource baseTree = .ok root ∧ root.classes = [n] ∧
      n.className? = some "A" ∧ PlainClause baseSource n baseClause.1 baseClause.2 := by
  have facts : (parse baseSource baseTree).map (fun root => root.classes.map fun n =>
      (n.className?, (n.slotTokens "superclass").take 2, classHeader baseSource n)) =
      .ok [(some "A", [baseClause.1, baseClause.2],
        "class A extends SystemServiceBase".toList)] := by
    decide +kernel
  obtain ⟨root, parsed, listed⟩ := exists_of_map_eq_ok facts
  obtain ⟨n, classes, found⟩ := List.map_eq_singleton_iff.mp listed
  obtain ⟨named, clause, header⟩ : n.className? = some "A" ∧
      (n.slotTokens "superclass").take 2 = [baseClause.1, baseClause.2] ∧
      classHeader baseSource n = "class A extends SystemServiceBase".toList := by
    simpa only [Prod.mk.injEq] using found
  refine ⟨root, n, parsed, classes, named, ⟨clause, rfl, by decide, ?_, ?_, ?_, ?_⟩⟩
  · exact List.all_eq_true.mp (by decide +kernel)
  · decide +kernel
  · intro c next
    have blank : baseSource[(baseClause.2.last + 1).toNat]? = some ' ' := by decide +kernel
    cases next.symm.trans blank
    decide +kernel
  · rw [header]
    decide +kernel

/-- The class is reported as a service, since the name of its superclass begins like one. -/
theorem analyze_service_baseSource :
    baseTree.LeavesInOrder baseSource ∧
      ∃ a s root n, analyze baseSource "F" baseTree = .ok a ∧
        parse baseSource baseTree = .ok root ∧ root.classes = [n] ∧
        PlainClause baseSource n baseClause.1 baseClause.2 ∧
        a.service = some s ∧ s.className = "A" := by
  obtain ⟨root, n, parsed, classes, named, plain⟩ := baseTree_classes
  obtain ⟨a, analyzed, -⟩ := analyze_aligned "F" (rfl : baseTree.label.hasError = false)
    baseTree_inOrder.aligned
  obtain ⟨root', parsed', -, reports⟩ := analyze_service_iff analyzed
  cases parsed.symm.trans parsed'
  obtain ⟨name, isService⟩ := reports n [] classes
  have reported := (isService baseTree_inOrder _ _ plain).mpr (by decide +kernel)
  obtain ⟨s, found⟩ := Option.isSome_iff_exists.mp reported
  refine ⟨baseTree_inOrder, a, s, root, n, analyzed, parsed, classes, plain, found, ?_⟩
  rcases name s found with tested | ⟨unnamed, -⟩
  · exact (Option.some.inj (named.symm.trans tested)).symm
  · rw [named] at unnamed
    cases unnamed

/-- A service whose name has a letter outside ASCII, and another class. -/
def foreignSource : Text :=
  "class Ä extends SystemService \x7b \x7d class B \x7b \x7d".toList

/-- The tree of `foreignSource`. -/
def foreignTree : Concrete :=
  .mk { kind := "program", startByte := 0, endByte := 46 }
    [emptySubclass 0 2 13, plainClass 35 46 []]

/-- The service is reported under the name of the other class, which has no superclass. -/
theorem foreignName_service :
    ∃ root a s, parse foreignSource foreignTree = .ok root ∧
      analyze foreignSource "F" foreignTree = .ok a ∧ a.service = some s ∧ s.className = "B" ∧
      ¬ ∃ n ∈ root.classes, n.slotImages "name" = [s.className] ∧
        n.slotImages "superclass" = ["extends", "SystemService"] := by
  have classes : (parse foreignSource foreignTree).map (fun root =>
      root.classes.map fun n => (n.slotImages "name", n.slotImages "superclass")) =
      .ok [(["Ä"], ["extends", "SystemService"]), (["B"], [])] := by
    decide +kernel
  have service : (analyze foreignSource "F" foreignTree).map (fun a =>
      a.service.map SystemService.className) = .ok (some "B") := by
    decide +kernel
  obtain ⟨root, parsed, listed⟩ := exists_of_map_eq_ok classes
  obtain ⟨a, analyzed, reported⟩ := exists_of_map_eq_ok service
  obtain ⟨s, found, named⟩ := Option.map_eq_some_iff.mp reported
  refine ⟨root, a, s, parsed, analyzed, found, named, ?_⟩
  rintro ⟨n, member, name, clause⟩
  have inList := List.mem_map_of_mem
    (f := fun n : Node => (n.slotImages "name", n.slotImages "superclass")) member
  rw [listed, name, clause, named] at inList
  simp at inList

end JavaSurvey
