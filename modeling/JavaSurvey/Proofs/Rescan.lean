import JavaSurvey.Proofs.Cache.Files
import JavaSurvey.Proofs.Cache.Standing
import JavaSurvey.Proofs.Scan
import JavaSurvey.Proofs.Workspace.Listing

/-!
# Scans of files that were scanned before

A scan leaves an analysis of every file in the cache, unless the file is not Java, is too large or
is rejected by the grammar. Another scan of the same files finds all it needs there.

1. `request_settles` and `request_repeats`: once a document was asked for, it is parsed again only
   if the grammar rejects it, and it is answered as before;
2. `Scanner.gather_alike`: a scan leaves the entry of a settled file alone, so what is settled stays
   settled;
3. `Scanner.gather_settles`, `Scanner.gather_repeats` and `Scanner.gather_reuses`: by induction on
   the files, a whole scan settles all of them, another one gives the same, and a scan of settled
   files changes nothing in the cache and parses only what the grammar rejects;
4. `Scanner.scans_reuse_cache`: so it is for a second scan for services, and for a scan for
   timelines, whose Java files are among those of the first.
-/

namespace JavaSurvey

/-! ## Settled documents -/

namespace Cache

/-- A document will not be parsed, except in vain. -/
def Settles (c : Cache) (grammar : Grammar) (d : Document) : Prop :=
  c.standing d = .unknown → grammar.Rejects d.text

theorem Settles.of_alike {c c' : Cache} {grammar : Grammar} {d : Document}
    (settles : c.Settles grammar d) (alike : AlikeAt d.uri c c') : c'.Settles grammar d :=
  fun new => settles (alike.standing.trans new)

theorem Settles.of_ne_unknown {c : Cache} {d : Document} (old : c.standing d ≠ .unknown)
    (grammar : Grammar) : c.Settles grammar d :=
  fun new => absurd new old

end Cache

/-! ## Requests -/

section Requests

variable {grammar : Grammar} {d : Document} {s s' : Session}

/-- A request for a settled document leaves the cache alone. -/
theorem request_of_settles (settles : s.cache.Settles grammar d) (cancel : Cancel) :
    (request grammar cancel d s).2.cache = s.cache ∧
      ((request grammar cancel d s).2.parses ≠ s.parses → grammar.Rejects d.text) := by
  by_cases new : s.cache.standing d = .unknown
  · have rejects := settles new
    refine ⟨?_, fun _ => rejects⟩
    rw [request, new]
    dsimp only
    split
    · rfl
    · exact analyzeNew_cache_of_rejects rejects s.asked
  · obtain ⟨kept, unparsed⟩ := request_of_ne_unknown new grammar cancel
    exact ⟨kept, fun parsed => absurd unparsed parsed⟩

theorem request_of_unknown (new : s.cache.standing d = .unknown) :
    request grammar .never d s = analyzeNew grammar d s.asked := by
  rw [request, new]
  rfl

/-- What an unknown document comes to: it is rejected, or its analysis is stored. -/
theorem request_new {found : Option FileAnalysis} (new : s.cache.standing d = .unknown)
    (answered : (request grammar .never d s).1 = .ok found) :
    (found = none ∧ grammar.Rejects d.text ∧
      (request grammar .never d s).2.cache = s.cache) ∨
    ∃ a, found = some a ∧ (request grammar .never d s).2.cache = s.cache.store d a := by
  rw [request_of_unknown new] at answered ⊢
  cases found with
  | none =>
    have rejects := (analyzeNew_eq_none_iff grammar d s.asked).mp answered
    exact .inl ⟨rfl, rejects, analyzeNew_cache_of_rejects rejects s.asked⟩
  | some a =>
    have succeeds := (analyzeNew_eq_some_iff grammar d s.asked a).mp answered
    refine .inr ⟨a, rfl, ?_⟩
    rw [analyzeNew_cache, succeeds]
    rfl

/-- A document that was asked for is settled. -/
theorem request_settles {found : Option FileAnalysis}
    (answered : (request grammar .never d s).1 = .ok found) :
    (request grammar .never d s).2.cache.Settles grammar d := by
  by_cases new : s.cache.standing d = .unknown
  · rcases request_new new answered with ⟨-, rejects, -⟩ | ⟨a, -, stored⟩
    · exact fun _ => rejects
    · obtain ⟨e, known, -⟩ := Cache.standing_store new a
      refine .of_ne_unknown ?_ grammar
      rw [stored, known]
      simp
  · refine .of_ne_unknown ?_ grammar
    rwa [(request_of_ne_unknown new grammar .never).1]

/-- A document that was asked for is answered as before, if its entry is still there. -/
theorem request_repeats {found : Option FileAnalysis}
    (answered : (request grammar .never d s).1 = .ok found)
    (alike : Cache.AlikeAt d.uri (request grammar .never d s).2.cache s'.cache) :
    (request grammar .never d s').1 = .ok found := by
  have standing' := alike.standing
  by_cases new : s.cache.standing d = .unknown
  · rcases request_new new answered with ⟨rfl, rejects, kept⟩ | ⟨a, rfl, stored⟩
    · rw [kept, new] at standing'
      rw [request_of_unknown standing'.symm]
      exact (analyzeNew_eq_none_iff grammar d s'.asked).mpr rejects
    · obtain ⟨e, known, rfl⟩ := Cache.standing_store new a
      rw [stored, known] at standing'
      rw [request, ← standing']
  · rw [(request_of_ne_unknown new grammar .never).1] at standing'
    rw [← answered, request, request, ← standing']
    cases standing : s.cache.standing d with
    | otherLanguage => rfl
    | oversized => rfl
    | known e => rfl
    | unknown => exact absurd standing new

/-- A request leaves the entry of a settled document alone, unless another document has its
address. -/
theorem Requested.alike {other : Document} {answer : Answer (Option FileAnalysis)}
    (requested : Requested grammar other s answer) (settles : s.cache.Settles grammar d)
    (apart : other.uri = d.uri → other = d) :
    Cache.AlikeAt d.uri s.cache answer.2.cache := by
  cases requested with
  | passed kept => exact .of_eq kept.symm d.uri
  | oversized kept => exact .of_eq kept.symm d.uri
  | known kept => exact .of_eq kept.symm d.uri
  | refused kept => exact .of_eq kept.symm d.uri
  | @analyzed s' a stored parsed java fits unknown succeeds =>
    by_cases same : other.uri = d.uri
    · -- The document itself cannot be analysed: it is known, or the grammar rejects it.
      obtain rfl := apart same
      obtain ⟨offset, refused⟩ :=
        settles (Cache.standing_eq_unknown_iff.mpr ⟨java, fits, unknown⟩)
      rw [analyze_eq_syntaxError_iff.mpr refused] at succeeds
      cases succeeds
    · refine ⟨by rw [stored]; rfl, ?_⟩
      rw [stored, Cache.find?_store, if_neg (Ne.symm same)]

theorem requestPath_of_settles {w : Workspace} {p : Path} (read : w.readDocument p = .ok d)
    (settles : s.cache.Settles grammar d) (cancel : Cancel) :
    (requestPath grammar w cancel p s).2.cache = s.cache ∧
      ((requestPath grammar w cancel p s).2.parses ≠ s.parses → grammar.Rejects d.text) := by
  cases stopped : s.isStopped cancel with
  | true =>
    rw [requestPath_of_told read grammar stopped]
    exact ⟨rfl, fun parsed => absurd rfl parsed⟩
  | false =>
    have settlesToo : s.asked.cache.Settles grammar d := settles
    rw [requestPath_of_running read grammar stopped]
    exact request_of_settles settlesToo cancel

/-- A file that cannot be read changes nothing but the log. -/
theorem requestPath_of_unreadable {w : Workspace} {p : Path} {e : Failure}
    (unread : w.readDocument p = .error e) (cancel : Cancel) :
    (requestPath grammar w cancel p s).2.cache = s.cache ∧
      (requestPath grammar w cancel p s).2.parses = s.parses := by
  rw [requestPath, unread]
  exact ⟨rfl, rfl⟩

theorem requestPath_settles {w : Workspace} {p : Path} {found : Option FileAnalysis}
    (answered : (requestPath grammar w .never p s).1 = .ok found)
    (read : w.readDocument p = .ok d) :
    (requestPath grammar w .never p s).2.cache.Settles grammar d := by
  rw [requestPath_of_running read grammar rfl] at answered ⊢
  exact request_settles answered

theorem requestPath_repeats {w : Workspace} {p : Path} {found : Option FileAnalysis}
    (answered : (requestPath grammar w .never p s).1 = .ok found)
    (alike : ∀ d, w.readDocument p = .ok d →
      Cache.AlikeAt d.uri (requestPath grammar w .never p s).2.cache s'.cache) :
    (requestPath grammar w .never p s').1 = .ok found := by
  cases read : w.readDocument p with
  | error e =>
    rw [requestPath, read] at answered ⊢
    exact answered
  | ok d =>
    have alikeHere := alike d read
    rw [requestPath_of_running read grammar rfl] at answered alikeHere ⊢
    exact request_repeats answered alikeHere

/-- A request parses once or not at all. -/
theorem Requested.parses_eq {answer : Answer (Option FileAnalysis)}
    (requested : Requested grammar d s answer) :
    answer.2.parses = s.parses ∨ answer.2.parses = s.parses + 1 := by
  cases requested with
  | passed _ unparsed => exact .inl unparsed
  | oversized _ unparsed => exact .inl unparsed
  | known _ unparsed => exact .inl unparsed
  | analyzed _ parsed => exact .inr parsed
  | refused _ parsed => exact .inr parsed

end Requests

/-- No two of some files have the same address. -/
def Workspace.DistinctAddresses (w : Workspace) (files : List Path) : Prop :=
  ∀ p ∈ files, ∀ q ∈ files, Path.addressOf (p.resolve w.cwd) = Path.addressOf (q.resolve w.cwd) →
    p = q

/-- The address and the language of a document that was read are those of its path. -/
theorem readDocument_of_path {w : Workspace} {p : Path} {d : Document}
    (read : w.readDocument p = .ok d) :
    d.uri = Path.addressOf (p.resolve w.cwd) ∧ d.languageId = p.extension := by
  unfold Workspace.readDocument at read
  cases text : w.readText p with
  | error e => rw [text] at read; cases read
  | ok t =>
    rw [text] at read
    cases read
    exact ⟨rfl, rfl⟩

namespace Scanner

section Gathering

variable {α : Type} (sc : Scanner) (pick : Path → FileAnalysis → Except Failure (List α))

/-! ## What is parsed -/

/-- The document that a request for a file parses, if it parses one. -/
def parsedFor (p : Path) (s : Session) : List Document :=
  match sc.workspace.readDocument p with
  | .error _ => []
  | .ok d =>
      if (requestPath sc.grammar sc.workspace sc.cancel p s).2.parses = s.parses then [] else [d]

/-- The documents that a scan parses. -/
def parsed : List Path → Session → List Document
  | [], _ => []
  | p :: rest, s =>
      if s.isStopped sc.cancel then []
      else
        match sc.visit pick p s.asked with
        | (.error _, _) => sc.parsedFor p s.asked
        | (.ok _, s') => sc.parsedFor p s.asked ++ parsed rest s'

section Equations

variable {sc pick} {p : Path} {s s' : Session}

theorem parsed_of_isStopped (stopped : s.isStopped sc.cancel = true) (rest : List Path) :
    sc.parsed pick (p :: rest) s = [] := by
  rw [parsed, if_pos stopped]

theorem parsed_of_visit_error {e : Failure} (running : s.isStopped sc.cancel = false)
    (visited : sc.visit pick p s.asked = (.error e, s')) (rest : List Path) :
    sc.parsed pick (p :: rest) s = sc.parsedFor p s.asked := by
  rw [parsed, if_neg (by simp [running]), visited]

theorem parsed_of_visit_ok {here : List α} (running : s.isStopped sc.cancel = false)
    (visited : sc.visit pick p s.asked = (.ok here, s')) (rest : List Path) :
    sc.parsed pick (p :: rest) s = sc.parsedFor p s.asked ++ sc.parsed pick rest s' := by
  rw [parsed, if_neg (by simp [running]), visited]

end Equations

theorem visit_session (p : Path) (s : Session) :
    (sc.visit pick p s).2 = (requestPath sc.grammar sc.workspace sc.cancel p s).2 := by
  rw [visit]
  rcases requestPath sc.grammar sc.workspace sc.cancel p s with ⟨_ | _ | a, after⟩ <;> rfl

theorem visit_answer (p : Path) (s : Session) :
    (sc.visit pick p s).1 =
      (requestPath sc.grammar sc.workspace sc.cancel p s).1.bind
        fun found => found.elim (.ok []) (pick p) := by
  rw [visit]
  rcases requestPath sc.grammar sc.workspace sc.cancel p s with ⟨_ | _ | a, after⟩ <;> rfl

/-- A visit counts the document that it parses. -/
theorem visit_parses (p : Path) (s : Session) :
    (sc.visit pick p s).2.parses = s.parses + (sc.parsedFor p s).length := by
  rw [visit_session, parsedFor]
  cases read : sc.workspace.readDocument p with
  | error e => exact (requestPath_of_unreadable read sc.cancel).2
  | ok d =>
    dsimp only
    split
    · next unparsed => rw [unparsed, List.length_nil, Nat.add_zero]
    · next counted =>
      rcases (requestPath_requested read sc.grammar sc.cancel s).parses_eq with same | one
      · exact absurd same counted
      · exact one

/-- A scan counts the documents that it parses. -/
theorem gather_parses (files : List Path) (s : Session) :
    (sc.gather pick files s).2.parses = s.parses + (sc.parsed pick files s).length := by
  induction files generalizing s with
  | nil => rfl
  | cons p rest ih =>
    cases stopped : s.isStopped sc.cancel with
    | true => rw [gather_of_isStopped pick stopped, parsed_of_isStopped stopped]; rfl
    | false =>
      have counted := sc.visit_parses pick p s.asked
      rcases visited : sc.visit pick p s.asked with ⟨e | here, s'⟩ <;> rw [visited] at counted
      · rw [gather_of_visit_error pick stopped visited, parsed_of_visit_error stopped visited]
        exact counted
      · rw [gather_of_visit_ok pick stopped visited, parsed_of_visit_ok stopped visited, ih,
          counted, List.length_append, Nat.add_assoc]
        rfl

/-! ## Settled files -/

/-- A file will not be parsed, except in vain. -/
def Settled (c : Cache) (p : Path) : Prop :=
  ∀ d, sc.workspace.readDocument p = .ok d → c.Settles sc.grammar d

/-- A scan leaves the cache alone, and it parses only what the grammar rejects. -/
structure Reuses (grammar : Grammar) (parsed : List Document) (s : Session)
    (answer : Answer (List α)) : Prop where
  kept : answer.2.cache = s.cache
  counted : answer.2.parses = s.parses + parsed.length
  rejected : ∀ d ∈ parsed, grammar.Rejects d.text

theorem visit_reuses {p : Path} {s : Session} (settled : sc.Settled s.cache p) :
    Reuses sc.grammar (sc.parsedFor p s) s (sc.visit pick p s) := by
  cases read : sc.workspace.readDocument p with
  | error e =>
    refine ⟨?_, sc.visit_parses pick p s, by simp [parsedFor, read]⟩
    rw [visit_session]
    exact (requestPath_of_unreadable read sc.cancel).1
  | ok d =>
    obtain ⟨kept, vain⟩ := requestPath_of_settles read (settled d read) sc.cancel
    refine ⟨by rw [visit_session, kept], sc.visit_parses pick p s, fun d' member => ?_⟩
    rw [parsedFor, read] at member
    dsimp only at member
    split at member
    · cases member
    · next parsed =>
      obtain rfl := List.mem_singleton.mp member
      exact vain parsed

/-- A scan of settled files leaves the cache alone and parses only what the grammar rejects. -/
theorem gather_reuses {files : List Path} {s : Session}
    (settled : ∀ p ∈ files, sc.Settled s.cache p) :
    Reuses sc.grammar (sc.parsed pick files s) s (sc.gather pick files s) := by
  suffices reuses : (sc.gather pick files s).2.cache = s.cache ∧
      ∀ d ∈ sc.parsed pick files s, sc.grammar.Rejects d.text from
    ⟨reuses.1, sc.gather_parses pick files s, reuses.2⟩
  induction files generalizing s with
  | nil => exact ⟨rfl, by simp [parsed]⟩
  | cons p rest ih =>
    cases stopped : s.isStopped sc.cancel with
    | true =>
      rw [gather_of_isStopped pick stopped, parsed_of_isStopped stopped]
      exact ⟨rfl, by simp⟩
    | false =>
      have settledHere : sc.Settled s.asked.cache p := settled p List.mem_cons_self
      have first := sc.visit_reuses pick settledHere
      rcases visited : sc.visit pick p s.asked with ⟨e | here, s'⟩ <;> rw [visited] at first
      · rw [gather_of_visit_error pick stopped visited, parsed_of_visit_error stopped visited]
        exact ⟨first.kept, first.rejected⟩
      · have same : s'.cache = s.cache := first.kept
        obtain ⟨kept, rejected⟩ :=
          @ih s' fun q later => same ▸ settled q (List.mem_cons_of_mem p later)
        rw [gather_of_visit_ok pick stopped visited, parsed_of_visit_ok stopped visited]
        refine ⟨kept.trans same, fun d member => ?_⟩
        exact (List.mem_append.mp member).elim (first.rejected d) (rejected d)

/-! ## Scans that settle -/

section Whole

variable {all : List Path} (distinct : sc.workspace.DistinctAddresses all) {p : Path}
  (known : p ∈ all) {d : Document} (read : sc.workspace.readDocument p = .ok d)

include distinct known read

theorem visit_alike {q : Path} (other : q ∈ all) {s : Session}
    (settles : s.cache.Settles sc.grammar d) :
    Cache.AlikeAt d.uri s.cache (sc.visit pick q s).2.cache := by
  rw [visit_session]
  cases readOther : sc.workspace.readDocument q with
  | error e => exact .of_eq (requestPath_of_unreadable readOther sc.cancel).1.symm d.uri
  | ok d' =>
    refine (requestPath_requested readOther sc.grammar sc.cancel s).alike settles fun same => ?_
    have samePath : q = p := distinct q other p known <| by
      rw [← (readDocument_of_path readOther).1, same, (readDocument_of_path read).1]
    rw [samePath] at readOther
    exact Except.ok.inj (readOther.symm.trans read)

/-- A scan leaves the entry of a settled file alone. -/
theorem gather_alike {files : List Path} (within : files ⊆ all) {s : Session}
    (settles : s.cache.Settles sc.grammar d) :
    Cache.AlikeAt d.uri s.cache (sc.gather pick files s).2.cache := by
  induction files generalizing s with
  | nil => exact .of_eq rfl d.uri
  | cons q rest ih =>
    cases stopped : s.isStopped sc.cancel with
    | true =>
      rw [gather_of_isStopped pick stopped]
      exact .of_eq rfl d.uri
    | false =>
      have settlesToo : s.asked.cache.Settles sc.grammar d := settles
      have first := sc.visit_alike pick distinct known read (within List.mem_cons_self) settlesToo
      rcases visited : sc.visit pick q s.asked with ⟨e | here, s'⟩ <;> rw [visited] at first
      · rw [gather_of_visit_error pick stopped visited]
        exact first
      · rw [gather_of_visit_ok pick stopped visited]
        exact first.trans (ih (List.subset_of_cons_subset within) (settles.of_alike first))

end Whole

theorem requestPath_of_visit_ok {p : Path} {s : Session} {here : List α}
    (visited : (sc.visit pick p s).1 = .ok here) :
    ∃ found, (requestPath sc.grammar sc.workspace sc.cancel p s).1 = .ok found ∧
      found.elim (.ok []) (pick p) = .ok here := by
  rw [visit_answer] at visited
  cases answered : (requestPath sc.grammar sc.workspace sc.cancel p s).1 with
  | error e => rw [answered] at visited; cases visited
  | ok found =>
    rw [answered] at visited
    exact ⟨found, rfl, visited⟩

theorem visit_settles {p : Path} {s : Session} {here : List α}
    (visited : (sc.unstopped.visit pick p s).1 = .ok here) :
    sc.Settled (sc.unstopped.visit pick p s).2.cache p := by
  intro d read
  obtain ⟨found, answered, -⟩ := sc.unstopped.requestPath_of_visit_ok pick visited
  rw [visit_session]
  exact requestPath_settles answered read

theorem visit_repeats {p : Path} {s s' : Session} {here : List α}
    (visited : (sc.unstopped.visit pick p s).1 = .ok here)
    (alike : ∀ d, sc.workspace.readDocument p = .ok d →
      Cache.AlikeAt d.uri (sc.unstopped.visit pick p s).2.cache s'.cache) :
    (sc.unstopped.visit pick p s').1 = .ok here := by
  obtain ⟨found, answered, picked⟩ := sc.unstopped.requestPath_of_visit_ok pick visited
  rw [visit_session] at alike
  have again :
      (requestPath sc.unstopped.grammar sc.unstopped.workspace sc.unstopped.cancel p s').1 =
        .ok found :=
    requestPath_repeats answered alike
  rw [visit_answer, again]
  exact picked

/-- A whole scan settles all its files. -/
theorem gather_settles {files all : List Path} (distinct : sc.workspace.DistinctAddresses all)
    (within : files ⊆ all) {s : Session} {found : List α}
    (gathered : (sc.unstopped.gather pick files s).1 = .ok found) :
    ∀ p ∈ files, sc.Settled (sc.unstopped.gather pick files s).2.cache p := by
  induction files generalizing s found with
  | nil => simp
  | cons p rest ih =>
    obtain ⟨here, later, s', visited, gatheredRest, -, last⟩ := sc.gather_cons_ok pick gathered
    have withinRest := List.subset_of_cons_subset within
    rw [last]
    intro q member
    rcases List.mem_cons.mp member with rfl | inRest
    · intro d read
      have settles := sc.visit_settles pick (congrArg Prod.fst visited) d read
      rw [visited] at settles
      have alike := sc.unstopped.gather_alike pick distinct (within List.mem_cons_self) read
        withinRest settles
      exact settles.of_alike alike
    · exact ih withinRest gatheredRest q inRest

/-- A whole scan gives the same when it is made again. -/
theorem gather_repeats {files all : List Path} (distinct : sc.workspace.DistinctAddresses all)
    (within : files ⊆ all) {s s' : Session} {found : List α}
    (gathered : (sc.unstopped.gather pick files s).1 = .ok found)
    (same : s'.cache = (sc.unstopped.gather pick files s).2.cache) :
    (sc.unstopped.gather pick files s').1 = .ok found := by
  induction files generalizing s s' found with
  | nil => exact gathered
  | cons p rest ih =>
    have settled : sc.Settled s'.asked.cache p :=
      same ▸ sc.gather_settles pick distinct within gathered p List.mem_cons_self
    obtain ⟨here, later, after, visited, gatheredRest, rfl, last⟩ := sc.gather_cons_ok pick gathered
    have withinRest := List.subset_of_cons_subset within
    rw [last] at same
    have again : (sc.unstopped.visit pick p s'.asked).1 = .ok here := by
      refine sc.visit_repeats pick (congrArg Prod.fst visited) fun d read => ?_
      have settles := sc.visit_settles pick (congrArg Prod.fst visited) d read
      have same' : s'.asked.cache = (sc.unstopped.gather pick rest after).2.cache := same
      rw [visited] at settles ⊢
      rw [same']
      exact sc.unstopped.gather_alike pick distinct (within List.mem_cons_self) read withinRest
        settles
    have kept : (sc.unstopped.visit pick p s'.asked).2.cache = s'.cache :=
      (sc.unstopped.visit_reuses pick settled).kept
    rw [gather_of_visit_ok pick rfl (Prod.ext again rfl),
      ih withinRest gatheredRest (kept.trans same)]
    rfl

end Gathering

/-! ## Services, then timelines -/

/-- A file in another language is settled, and every Java file matches the pattern for Java
files. -/
theorem settled_targetFiles {sc : Scanner} {c : Cache} {root : Path} {excluded : List String}
    (settled : ∀ p ∈ sc.workspace.filesMatching root "*.java" excluded, sc.Settled c p)
    (targets : List String) : ∀ p ∈ sc.targetFiles root targets excluded, sc.Settled c p := by
  intro p member d read
  obtain ⟨target, -, listed⟩ := List.mem_flatMap.mp member
  by_cases java : p.extension = "java"
  · exact settled p (mem_javaFiles listed java) d read
  · refine .of_ne_unknown (fun new => java ?_) sc.grammar
    rw [← (readDocument_of_path read).2]
    exact beq_iff_eq.mp (Cache.standing_eq_unknown_iff.mp new).1

/-- After a whole scan for services, which always gives a list if the trees keep to their sources,
another one gives the same list. It leaves the cache alone and parses only what the grammar rejects,
and so does a scan for timelines of any targets, told to stop or not. -/
theorem scans_reuse_cache (sc : Scanner) (root : Path) (excluded : List String)
    (distinct : sc.workspace.DistinctAddresses (sc.workspace.filesMatching root "*.java" excluded))
    (s : Session) :
    (sc.grammar.SpansWithin → ∃ found, (sc.unstopped.services root excluded s).1 = .ok found) ∧
    ∀ found, (sc.unstopped.services root excluded s).1 = .ok found →
      ∀ s' : Session, s'.cache = (sc.unstopped.services root excluded s).2.cache →
        (sc.unstopped.services root excluded s').1 = .ok found ∧
        Reuses sc.grammar
          (sc.unstopped.parsed servicesOf (sc.workspace.filesMatching root "*.java" excluded) s')
          s' (sc.unstopped.services root excluded s') ∧
        ∀ targets, Reuses sc.grammar
          (sc.parsed (timelinesOf targets) (sc.targetFiles root targets excluded) s')
          s' (sc.timelines root targets excluded s') := by
  refine ⟨fun spans => ?_, fun found gathered s' same => ?_⟩
  · exact sc.unstopped.gather_ok servicesOf spans (fun p a => ⟨_, rfl⟩) _ s
  · have settled : ∀ p ∈ sc.workspace.filesMatching root "*.java" excluded,
        sc.Settled s'.cache p :=
      same ▸ sc.gather_settles servicesOf distinct (List.Subset.refl _) gathered
    refine ⟨sc.gather_repeats servicesOf distinct (List.Subset.refl _) gathered same, ?_, ?_⟩
    · exact sc.unstopped.gather_reuses servicesOf settled
    · intro targets
      exact sc.gather_reuses (timelinesOf targets) (settled_targetFiles settled targets)

/-- A grammar that rejects every text but the empty one. -/
def pickyGrammar : Grammar := fun t =>
  .mk { kind := "program", startByte := 0, endByte := 0, hasError := !t.isEmpty } []

/-- A scanner of a directory with two files, of which the grammar rejects the second. -/
def pickyFiles : Scanner where
  grammar := pickyGrammar
  workspace := {
    entries := [.directory "ws" [.file "A.java" [], .file "B.java" [120]]]
    cwd := ["ws"] }

/-- The files of `pickyFiles`. -/
def pickyPaths : List Path :=
  pickyFiles.workspace.filesMatching ⟨.relative, []⟩ "*.java" []

/-- A scan of `pickyFiles` for services. -/
def pickyServices (s : Session) : Answer (List SystemService) :=
  pickyFiles.unstopped.services ⟨.relative, []⟩ [] s

theorem pickyGrammar_spansWithin : pickyGrammar.SpansWithin := by
  intro t c member
  obtain rfl : c = pickyGrammar t := List.mem_singleton.mp member
  exact ⟨Int.le_refl 0, Int.le_refl 0, Int.natCast_nonneg _⟩

/-- The first scan parses both files, and the second only the one that is rejected. -/
theorem scans_reuse_cache_pickyFiles :
    pickyFiles.workspace.DistinctAddresses pickyPaths ∧ pickyFiles.grammar.SpansWithin ∧
    ∃ first found, pickyServices { cache := { limit := 10 } } = (.ok found, first) ∧
      (pickyServices first).1 = .ok found ∧ (pickyServices first).2.cache = first.cache ∧
      first.parses = 2 ∧ (pickyServices first).2.parses = 3 ∧
      ∀ d ∈ pickyFiles.unstopped.parsed servicesOf pickyPaths first,
        pickyFiles.grammar.Rejects d.text := by
  have distinct : pickyFiles.workspace.DistinctAddresses pickyPaths := by
    unfold Workspace.DistinctAddresses
    decide +kernel
  obtain ⟨gives, again⟩ :=
    pickyFiles.scans_reuse_cache ⟨.relative, []⟩ [] distinct { cache := { limit := 10 } }
  obtain ⟨found, gathered⟩ := gives pickyGrammar_spansWithin
  obtain ⟨repeats, reuses, -⟩ := again found gathered _ rfl
  refine ⟨distinct, pickyGrammar_spansWithin, _, found, Prod.ext gathered rfl, repeats,
    reuses.kept, ?_, ?_, reuses.rejected⟩
  · decide +kernel
  · decide +kernel

end Scanner

end JavaSurvey
