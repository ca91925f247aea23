import JavaSurvey.Proofs.Services

/-!
# Published services

A system service is reported with the binder services that it publishes, one for each call of a
method that publishes one. Their names are read from the lines of the calls, and these lines are
cut out of the source apart from the line index that numbers the calls.

1. `quotedText?_first`: the name that is read from a line is the first that is quoted there;
2. `CallSite.Stands.exists_hasLine`: a call that stands in the source stands on its line;
3. `analyze_binderServices`: the services that are reported are those of the calls, in their order,
   each with the name on the line where the call stands.
-/

namespace JavaSurvey

/-! ## Quoted names -/

namespace Text

/-- Between two double quotes, the first of them at `i`, there are some characters, none of them a
double quote. -/
structure QuotedAt (t : Text) (i : Nat) (run : Text) : Prop where
  here : '"' :: (run ++ ['"']) <+: t.drop i
  nonempty : run ≠ []
  unquoted : '"' ∉ run

/-- What is quoted first in a text, if anything is. -/
inductive FirstQuoted (t : Text) : Option Text → Prop
  | found {i : Nat} {run : Text} (quoted : t.QuotedAt i run)
      (first : ∀ j other, t.QuotedAt j other → i ≤ j) : FirstQuoted t (some run)
  | missing (absent : ∀ i run, ¬ t.QuotedAt i run) : FirstQuoted t none

theorem quotedAt_cons_succ {c : Char} {t : Text} {i : Nat} {run : Text} :
    QuotedAt (c :: t) (i + 1) run ↔ t.QuotedAt i run :=
  ⟨fun ⟨here, nonempty, unquoted⟩ => ⟨here, nonempty, unquoted⟩,
    fun ⟨here, nonempty, unquoted⟩ => ⟨here, nonempty, unquoted⟩⟩

theorem QuotedAt.head_eq {c : Char} {t run : Text} (quoted : QuotedAt (c :: t) 0 run) : c = '"' :=
  (List.cons_prefix_cons.mp quoted.here).1.symm

/-- After a double quote, the quoted characters are those up to the next one. -/
theorem quotedAt_quote_iff {t run : Text} :
    QuotedAt ('"' :: t) 0 run ↔
      run = t.takeWhile (· != '"') ∧ run ≠ [] ∧ run.length < t.length := by
  constructor
  · rintro ⟨here, nonempty, unquoted⟩
    obtain ⟨rest, rfl⟩ := (List.cons_prefix_cons.mp here).2
    rw [List.append_assoc, List.singleton_append]
    refine ⟨(takeWhile_ne_append_cons unquoted rest).symm, nonempty, ?_⟩
    simp
  · rintro ⟨rfl, nonempty, shorter⟩
    refine ⟨List.cons_prefix_cons.mpr ⟨rfl, ?_⟩, nonempty, ?_⟩
    · have parts : t.takeWhile (· != '"') ++ t.dropWhile (· != '"') = t :=
        List.takeWhile_append_dropWhile
      cases dropped : t.dropWhile (· != '"') with
      | nil =>
        rw [dropped, List.append_nil] at parts
        rw [parts] at shorter
        exact absurd shorter (Nat.lt_irrefl _)
      | cons c rest =>
        have isQuote := List.head?_dropWhile_not (· != '"') t
        rw [dropped, List.head?_cons] at isQuote
        obtain rfl : c = '"' := by simpa using isQuote
        exact ⟨rest, by rw [List.append_assoc, List.singleton_append, ← dropped, parts]⟩
    · intro member
      exact absurd (List.mem_takeWhile_imp member) (by decide)

/-- Where nothing is quoted at the start of a text, what is quoted first is in the rest. -/
theorem FirstQuoted.cons {c : Char} {t : Text} {found : Option Text}
    (notHere : ∀ run, ¬ QuotedAt (c :: t) 0 run) (rest : t.FirstQuoted found) :
    FirstQuoted (c :: t) found := by
  cases rest with
  | found quoted first =>
    refine .found (quotedAt_cons_succ.mpr quoted) ?_
    intro j other isQuoted
    cases j with
    | zero => exact absurd isQuoted (notHere other)
    | succ j => exact Nat.succ_le_succ (first j other (quotedAt_cons_succ.mp isQuoted))
  | missing absent =>
    refine .missing ?_
    intro i run isQuoted
    cases i with
    | zero => exact notHere run isQuoted
    | succ i => exact absent i run (quotedAt_cons_succ.mp isQuoted)

end Text

/-- The search finds what is quoted first. -/
theorem quotedText?_first (t : Text) : t.FirstQuoted (quotedText? t) := by
  induction t with
  | nil =>
    refine .missing ?_
    rintro i run ⟨here, -, -⟩
    rw [List.drop_nil] at here
    exact absurd (List.prefix_nil.mp here) (List.cons_ne_nil _ _)
  | cons c rest ih =>
    unfold quotedText?
    split
    · next isQuote =>
      subst isQuote
      dsimp only
      split
      · next closed =>
        have quoted := Text.quotedAt_quote_iff.mpr ⟨rfl, closed⟩
        exact .found quoted fun j other _ => Nat.zero_le j
      · next notClosed =>
        refine ih.cons fun run quoted => notClosed ?_
        obtain ⟨rfl, closed⟩ := Text.quotedAt_quote_iff.mp quoted
        exact closed
    · next other => exact ih.cons fun run quoted => other quoted.head_eq

/-! ## Lines of calls -/

namespace CallSite

/-- The name of a call stands in the source, where the call says that it is. -/
structure Stands (s : CallSite) (source : Text) : Prop where
  nonneg : 0 ≤ s.offset
  here : s.name.toList <+: source.drop s.offset.toNat
  line : s.line = (LineIndex.ofText source).lineOf s.offset

/-- The name of a call stands in a line that starts at `start`. -/
structure StandsOn (s : CallSite) (start : Int) (line : Text) : Prop where
  after : start ≤ s.offset
  here : s.name.toList <+: line.drop (s.offset - start).toNat

/-- A call whose name has no newline stands on its line. -/
theorem Stands.exists_hasLine {s : CallSite} {source : Text} (stands : s.Stands source)
    (nonempty : s.name.toList ≠ []) (single : '\n' ∉ s.name.toList) :
    ∃ start line, source.HasLine s.line start line ∧ s.StandsOn start line := by
  have bounded := Text.prefix_drop_bounded nonempty stands.here
  have nonneg := stands.nonneg
  obtain ⟨start, line, isLine, after, before⟩ :=
    Text.exists_hasLine_lineOf nonneg (show s.offset ≤ source.length by omega)
  obtain ⟨front, back, place, rfl⟩ := isLine.lineAt
  have column : s.offset.toNat = front.length + (s.offset - front.length).toNat := by omega
  have here := stands.here
  rw [column] at here
  refine ⟨front.length, line, by rwa [stands.line], by omega, ?_⟩
  exact place.prefix_drop single (by omega) here

end CallSite

/-- The bodies of the methods of a tree without leaves before the source do not start before it. -/
theorem body_start_nonneg {source : Text} {fallback : String} {tree : Concrete} {a : FileAnalysis}
    (starts : ∀ l ∈ tree.leaves, 0 ≤ l.startByte) (analyzed : analyze source fallback tree = .ok a)
    {m : MethodDecl} (listed : m ∈ a.methods) {body : Span} (isBody : m.body = some body) :
    0 ≤ body.start := by
  obtain ⟨root, read, methods, -⟩ := analyze_inv analyzed
  rw [methods, List.mem_filterMap] at listed
  obtain ⟨method, below, declared⟩ := listed
  obtain ⟨-, ranges⟩ := methodDecl?_eq_some (declarationOf?_eq_some.mp declared)
  obtain ⟨block, inMethod, range⟩ := bodyRange?_eq_some (ranges body isBody)
  obtain ⟨⟨t, inBlock, first⟩, -, -⟩ := rangeOf?_bounds range
  rw [← first]
  exact Concrete.start_nonneg starts (toNode_of_parse read)
    (Node.mem_tokens_of_mem_findAll below (inMethod t inBlock))

/-- The calls of an analysis stand in the source. -/
theorem calls_stand {source : Text} {fallback : String} {tree : Concrete} {a : FileAnalysis}
    (starts : ∀ l ∈ tree.leaves, 0 ≤ l.startByte) (analyzed : analyze source fallback tree = .ok a)
    {s : CallSite} (listed : s ∈ a.calls) : s.Stands source := by
  obtain ⟨root, -, -, calls⟩ := analyze_inv analyzed
  rw [calls] at listed
  obtain ⟨m, isMethod, found⟩ := mem_callSites listed
  obtain ⟨-, located, nonneg, here⟩ := located_of_start_nonneg
    (fun body isBody => body_start_nonneg starts analyzed isMethod isBody) found
  refine ⟨nonneg, here, ?_⟩
  rw [located.line, LineIndex.lineOf_ofText]

/-! ## Services of calls -/

/-- A call publishes a service: it stands on one of the lines of the source, and the service has the
number of this line and the name that is quoted first on it. -/
structure PublishedBy (source : Text) (call : CallSite) (service : BinderService) : Prop where
  line : service.line = call.line
  bounded : 1 ≤ call.line ∧ call.line ≤ (Text.lines source).length
  stands : ∃ start text, source.HasLine call.line start text ∧ call.StandsOn start text ∧
    ∃ found, text.FirstQuoted found ∧
      service.name = (found.map String.ofList).getD "<unknown>"

theorem Text.HasLine.lineWith {t : Text} {number start : Int} {line : Text}
    (isLine : t.HasLine number start line) : lineWith (Text.lines t) number = .ok line := by
  have counted := isLine.counted
  unfold JavaSurvey.lineWith Text.index?
  rw [if_pos isLine.number_le, if_pos (Int.sub_nonneg.mpr counted), isLine.listed]

/-- The services of a summary are those of the calls that publish one. -/
theorem publishedServices_of_systemService? {source : Text} {className : String}
    {header : Option Text} {methods : List MethodDecl} {calls : List CallSite} {s : SystemService}
    (made : systemService? source className header methods calls = .ok (some s)) :
    publishedServices (Text.lines source)
      (calls.filter fun call => publishCalls.contains call.name) = .ok s.binderServices := by
  unfold systemService? at made
  split at made
  · cases published : publishedServices (Text.lines source)
        (calls.filter fun call => publishCalls.contains call.name) with
    | error e => rw [published] at made; cases made
    | ok services =>
      rw [published] at made
      cases made
      rfl
  · cases made

theorem publishedBy_of_stands {source : Text} {call : CallSite} {service : BinderService}
    (stands : call.Stands source) (publishes : publishCalls.contains call.name = true)
    (made : publishedService (Text.lines source) call = .ok service) :
    PublishedBy source call service := by
  have named : call.name.toList ≠ [] ∧ '\n' ∉ call.name.toList := by
    rw [List.contains_iff_mem] at publishes
    rcases List.mem_pair.mp publishes with name | name
    all_goals
      rw [name]
      decide
  obtain ⟨start, text, isLine, here⟩ := stands.exists_hasLine named.1 named.2
  unfold publishedService at made
  rw [isLine.lineWith] at made
  cases made
  refine ⟨rfl, ⟨isLine.counted, isLine.number_le⟩, start, text, isLine, here, _,
    quotedText?_first text, ?_⟩
  cases quotedText? text <;> rfl

/-- Calls that stand in the source publish their services in their order. -/
theorem forall₂_publishedBy {source : Text} {calls : List CallSite} {services : List BinderService}
    (stand : ∀ call ∈ calls, call.Stands source)
    (publish : ∀ call ∈ calls, publishCalls.contains call.name = true)
    (made : publishedServices (Text.lines source) calls = .ok services) :
    List.Forall₂ (PublishedBy source) calls services := by
  induction calls generalizing services with
  | nil =>
    cases made
    exact .nil
  | cons call calls ih =>
    unfold publishedServices at made
    cases first : publishedService (Text.lines source) call with
    | error e => rw [first] at made; cases made
    | ok service =>
      cases rest : publishedServices (Text.lines source) calls with
      | error e => rw [first, rest] at made; cases made
      | ok others =>
        rw [first, rest] at made
        cases made
        rw [List.forall_mem_cons] at stand publish
        exact .cons (publishedBy_of_stands stand.1 publish.1 first) (ih stand.2 publish.2 rest)

/-- The services that are reported are one for each call of a method that publishes a service, in
the order of the calls. Each has the line of its call, which is one of the lines of the source. The
name of the call stands on this line, and the name of the service is what is quoted first on it. -/
theorem analyze_binderServices {source : Text} {fallback : String} {tree : Concrete}
    {a : FileAnalysis} {s : SystemService} (starts : ∀ l ∈ tree.leaves, 0 ≤ l.startByte)
    (analyzed : analyze source fallback tree = .ok a) (reported : a.service = some s) :
    List.Forall₂ (PublishedBy source)
      (a.calls.filter fun call =>
        call.name = "publishBinderService" ∨ call.name = "addService")
      s.binderServices := by
  obtain ⟨root, -, onTree⟩ := analyze_eq_ok analyzed
  obtain ⟨-, -, -, made⟩ := analyzeTree_inv onTree
  rw [reported] at made
  have selected : (fun call : CallSite => publishCalls.contains call.name) =
      fun call => decide (call.name = "publishBinderService" ∨ call.name = "addService") := by
    funext call
    rw [Bool.eq_iff_iff, List.contains_iff_mem, decide_eq_true_iff]
    exact List.mem_pair
  rw [← selected]
  refine forall₂_publishedBy ?_ ?_ (publishedServices_of_systemService? made)
  · intro call chosen
    exact calls_stand starts analyzed (List.mem_filter.mp chosen).1
  · intro call chosen
    exact (List.mem_filter.mp chosen).2

/-- A service that publishes two others. The name of one of them is quoted on the line of its call,
after a character of two bytes, and the name of the other is not quoted. -/
def publishingSource : Text :=
  "class A extends SystemService \x7b void f() \x7b /* é */ addService(\"b\");\n".toList ++
    "addService(c); \x7d \x7d".toList

/-- The tree of `publishingSource`. -/
def publishingTree : Concrete :=
  .mk { kind := "program", startByte := 0, endByte := 87 } [
    .mk { kind := "class_declaration", startByte := 0, endByte := 87 } [
      .leaf "class" none 0 5,
      .leaf "identifier" (some "name") 6 7,
      .mk { kind := "superclass", field := some "superclass", startByte := 8, endByte := 29 }
        [.leaf "extends" none 8 15, .leaf "type_identifier" none 16 29],
      .mk { kind := "class_body", field := some "body", startByte := 30, endByte := 87 }
        [.leaf "\x7b" none 30 31, voidMethod 32 85 [], .leaf "\x7d" none 86 87]]]

theorem publishingTree_starts (l : Label) (isLeaf : l ∈ publishingTree.leaves) :
    0 ≤ l.startByte := by
  have starts : publishingTree.leaves.all fun l => 0 ≤ l.startByte := by decide +kernel
  exact of_decide_eq_true (List.all_eq_true.mp starts l isLeaf)

theorem publishingTree_services :
    (analyze publishingSource "F" publishingTree).map
      (fun a => a.service.map SystemService.binderServices) =
        .ok (some [⟨"b", 1⟩, ⟨"<unknown>", 2⟩]) := by
  decide +kernel

theorem analyze_binderServices_publishing :
    ∃ a s, analyze publishingSource "F" publishingTree = .ok a ∧ a.service = some s ∧
      s.binderServices = [⟨"b", 1⟩, ⟨"<unknown>", 2⟩] ∧
      List.Forall₂ (PublishedBy publishingSource)
        (a.calls.filter fun call =>
          call.name = "publishBinderService" ∨ call.name = "addService")
        s.binderServices := by
  obtain ⟨a, analyzed, reported⟩ := exists_of_map_eq_ok publishingTree_services
  obtain ⟨s, isService, services⟩ := Option.map_eq_some_iff.mp reported
  exact ⟨a, s, analyzed, isService, services,
    analyze_binderServices publishingTree_starts analyzed isService⟩

end JavaSurvey
