import JavaSurvey.Proofs.Analysis
import JavaSurvey.Proofs.Cache.History
import JavaSurvey.Scan

/-!
# Scans that are told to stop

A scan asks whether to stop before every file, after it has read one, and before it parses one, and
it may be told at any of these. Whichever it is, the scan comes to what it would come to if there
were only its first files.

1. `requestPath_interrupted`: a request for a file is not changed by the word to stop, or it comes
   to nothing and the session knows that it is told;
2. `Scanner.gather_interrupted`: by induction on the files, a scan that is told to stop is a whole
   scan of the first of them, since a session that is told stays so;
3. `Scanner.gather_first`: what the first files give is the start of what all of them give;
4. `Scanner.scans_stop_early`: so it is for services and timelines, and a definition is found as
   without the word to stop or not at all.
-/

namespace JavaSurvey

/-! ## Requests -/

/-- The session was told to stop when it last asked. -/
def Session.IsTold (s : Session) (cancel : Cancel) : Prop :=
  cancel.requested s.polls s.parses = true

theorem Session.IsTold.isStopped {s : Session} {cancel : Cancel} (told : s.IsTold cancel) :
    s.isStopped cancel = true :=
  cancel.stays s.polls (s.polls + 1) s.parses s.parses (Nat.le_succ _) (Nat.le_refl _) told

/-- What the word to stop makes of an answer: it is that of the whole operation, or it is `nothing`
and the session is told. -/
inductive Interrupted {α : Type} (nothing : α) (cancel : Cancel) (s : Session)
    (whole answer : Answer α) : Prop
  | unchanged (same : answer = whole)
  | told (empty : answer.1 = .ok nothing) (kept : answer.2.cache = s.cache)
      (told : answer.2.IsTold cancel)

theorem request_interrupted (grammar : Grammar) (cancel : Cancel) (d : Document) (s : Session) :
    Interrupted none cancel s (request grammar .never d s) (request grammar cancel d s) := by
  simp only [request]
  cases s.cache.standing d with
  | otherLanguage => exact .unchanged rfl
  | oversized => exact .unchanged rfl
  | known e => exact .unchanged rfl
  | unknown =>
    cases stopped : s.isStopped cancel with
    | true => exact .told rfl rfl stopped
    | false => exact .unchanged rfl

theorem requestPath_interrupted (grammar : Grammar) (w : Workspace) (cancel : Cancel) (p : Path)
    (s : Session) :
    Interrupted none cancel s (requestPath grammar w .never p s)
      (requestPath grammar w cancel p s) := by
  simp only [requestPath]
  cases w.readDocument p with
  | error e => exact .unchanged rfl
  | ok d =>
    cases stopped : s.isStopped cancel with
    | true => exact .told rfl rfl stopped
    | false =>
      cases request_interrupted grammar cancel d s.asked with
      | unchanged same => exact .unchanged same
      | told empty kept told => exact .told empty kept told

/-- A grammar whose trees keep to their sources. -/
def Grammar.SpansWithin (grammar : Grammar) : Prop :=
  ∀ t, (grammar t).SpansWithin t

theorem analyzeNew_ok {grammar : Grammar} (spans : grammar.SpansWithin) (d : Document)
    (s : Session) : ∃ found, (analyzeNew grammar d s).1 = .ok found := by
  simp only [analyzeNew]
  cases marked : (grammar d.text).label.hasError with
  | false =>
    obtain ⟨a, analyzed, -⟩ := analyze_ok d.fallback marked (spans d.text)
    exact ⟨some a, by rw [analyzed]⟩
  | true => exact ⟨none, by rw [analyze_fault d.fallback marked (spans d.text)]⟩

theorem request_ok {grammar : Grammar} (spans : grammar.SpansWithin) (cancel : Cancel)
    (d : Document) (s : Session) : ∃ found, (request grammar cancel d s).1 = .ok found := by
  unfold request
  split
  · exact ⟨_, rfl⟩
  · exact ⟨_, rfl⟩
  · exact ⟨_, rfl⟩
  · split
    · exact ⟨_, rfl⟩
    · exact analyzeNew_ok spans d s.asked

theorem requestPath_ok {grammar : Grammar} (spans : grammar.SpansWithin) (w : Workspace)
    (cancel : Cancel) (p : Path) (s : Session) :
    ∃ found, (requestPath grammar w cancel p s).1 = .ok found := by
  unfold requestPath
  split
  · exact ⟨_, rfl⟩
  · next d _ =>
    split
    · exact ⟨_, rfl⟩
    · exact request_ok spans cancel d s.asked

namespace Scanner

/-! ## Gathering -/

/-- The same scanner, never told to stop. -/
def unstopped (sc : Scanner) : Scanner :=
  { sc with cancel := .never }

section Gathering

variable {α : Type} (sc : Scanner) (pick : Path → FileAnalysis → Except Failure (List α))

/-- What one file adds to a scan. -/
def visit (p : Path) (s : Session) : Answer (List α) :=
  match requestPath sc.grammar sc.workspace sc.cancel p s with
  | (.error e, s) => (.error e, s)
  | (.ok none, s) => (.ok [], s)
  | (.ok (some a), s) => (pick p a, s)

theorem gather_of_isStopped {sc : Scanner} {s : Session} (stopped : s.isStopped sc.cancel = true)
    (p : Path) (rest : List Path) : sc.gather pick (p :: rest) s = (.ok [], s.asked) := by
  rw [gather, if_pos stopped]

theorem gather_of_visit_error {sc : Scanner} {s s' : Session} {p : Path} {e : Failure}
    (running : s.isStopped sc.cancel = false) (visited : sc.visit pick p s.asked = (.error e, s'))
    (rest : List Path) : sc.gather pick (p :: rest) s = (.error e, s') := by
  rw [gather, if_neg (by simp [running])]
  rcases asked : requestPath sc.grammar sc.workspace sc.cancel p s.asked with ⟨_ | _ | a, after⟩ <;>
    simp only [visit, asked] at visited
  · exact visited
  · cases visited
  · obtain ⟨refused, rfl⟩ := Prod.mk.inj visited
    simp only [refused]

/-- A scan puts what its first file adds before what the others do. -/
theorem gather_of_visit_ok {sc : Scanner} {s s' : Session} {p : Path} {here : List α}
    (running : s.isStopped sc.cancel = false) (visited : sc.visit pick p s.asked = (.ok here, s'))
    (rest : List Path) :
    sc.gather pick (p :: rest) s =
      ((sc.gather pick rest s').1.map (here ++ ·), (sc.gather pick rest s').2) := by
  rw [gather, if_neg (by simp [running])]
  rcases asked : requestPath sc.grammar sc.workspace sc.cancel p s.asked with ⟨_ | _ | a, after⟩ <;>
    simp only [visit, asked] at visited
  · cases visited
  · cases visited
    dsimp only
    rcases sc.gather pick rest s' with ⟨_ | later, _⟩ <;> rfl
  · obtain ⟨picked, rfl⟩ := Prod.mk.inj visited
    simp only [picked]
    rcases sc.gather pick rest after with ⟨_ | later, _⟩ <;> rfl

/-- A whole scan that succeeds visits its first file, and then goes on with the others. -/
theorem gather_cons_ok {p : Path} {rest : List Path} {s : Session} {found : List α}
    (gathered : (sc.unstopped.gather pick (p :: rest) s).1 = .ok found) :
    ∃ here later s', sc.unstopped.visit pick p s.asked = (.ok here, s') ∧
      (sc.unstopped.gather pick rest s').1 = .ok later ∧ found = here ++ later ∧
      (sc.unstopped.gather pick (p :: rest) s).2 = (sc.unstopped.gather pick rest s').2 := by
  have running : s.isStopped sc.unstopped.cancel = false := rfl
  rcases visited : sc.unstopped.visit pick p s.asked with ⟨e | here, s'⟩
  · rw [gather_of_visit_error pick running visited] at gathered
    cases gathered
  · rw [gather_of_visit_ok pick running visited] at gathered ⊢
    cases others : (sc.unstopped.gather pick rest s').1 with
    | error e => rw [others] at gathered; cases gathered
    | ok later =>
      rw [others] at gathered
      exact ⟨here, later, s', rfl, others, (Except.ok.inj gathered).symm, rfl⟩

theorem gather_of_isTold {sc : Scanner} {s : Session} (told : s.IsTold sc.cancel)
    (files : List Path) :
    (sc.gather pick files s).1 = .ok [] ∧ (sc.gather pick files s).2.cache = s.cache := by
  cases files with
  | nil => exact ⟨rfl, rfl⟩
  | cons p rest =>
    rw [gather_of_isStopped pick told.isStopped]
    exact ⟨rfl, rfl⟩

theorem visit_interrupted (p : Path) (s : Session) :
    Interrupted [] sc.cancel s (sc.unstopped.visit pick p s) (sc.visit pick p s) := by
  cases requestPath_interrupted sc.grammar sc.workspace sc.cancel p s with
  | unchanged same =>
    refine .unchanged ?_
    simp only [visit, unstopped, same]
  | told empty kept told =>
    rcases request : requestPath sc.grammar sc.workspace sc.cancel p s with ⟨answer, s'⟩
    rw [request] at empty kept told
    cases empty
    have visited : sc.visit pick p s = (.ok [], s') := by simp only [visit, request]
    rw [visited]
    exact .told rfl kept told

/-- A scan that may be told to stop is a whole scan of the first of its files. -/
theorem gather_interrupted (files : List Path) (s : Session) :
    ∃ visited, visited <+: files ∧
      (sc.gather pick files s).1 = (sc.unstopped.gather pick visited s).1 ∧
      (sc.gather pick files s).2.cache = (sc.unstopped.gather pick visited s).2.cache := by
  induction files generalizing s with
  | nil => exact ⟨[], List.prefix_rfl, rfl, rfl⟩
  | cons p rest ih =>
    cases stopped : s.isStopped sc.cancel with
    | true =>
      rw [gather_of_isStopped pick stopped]
      exact ⟨[], List.nil_prefix, rfl, rfl⟩
    | false =>
      have running : s.isStopped sc.unstopped.cancel = false := rfl
      cases sc.visit_interrupted pick p s.asked with
      | unchanged same =>
        rcases first : sc.unstopped.visit pick p s.asked with ⟨e | here, s'⟩
        · refine ⟨[p], by simp, ?_⟩
          rw [gather_of_visit_error pick stopped (same.trans first),
            gather_of_visit_error pick running first]
          exact ⟨rfl, rfl⟩
        · obtain ⟨visited, start, sameAnswer, sameCache⟩ := ih s'
          refine ⟨p :: visited, List.cons_prefix_cons.mpr ⟨rfl, start⟩, ?_⟩
          rw [gather_of_visit_ok pick stopped (same.trans first),
            gather_of_visit_ok pick running first]
          exact ⟨by rw [sameAnswer], sameCache⟩
      | told empty kept told =>
        -- The file is left out, and so are those after it.
        obtain ⟨noMore, sameCache⟩ := gather_of_isTold pick told rest
        refine ⟨[], List.nil_prefix, ?_⟩
        rw [gather_of_visit_ok pick stopped (Prod.ext empty rfl)]
        exact ⟨by rw [noMore]; rfl, sameCache.trans kept⟩

/-- What the first of some files give is the start of what all of them give. -/
theorem gather_first {visited files : List Path} (start : visited <+: files) {s : Session}
    {all : List α} (whole : (sc.unstopped.gather pick files s).1 = .ok all) :
    ∃ found, (sc.unstopped.gather pick visited s).1 = .ok found ∧ found <+: all := by
  induction visited generalizing files s all with
  | nil => exact ⟨[], rfl, List.nil_prefix⟩
  | cons p rest ih =>
    obtain ⟨files, rfl, startRest⟩ := List.cons_prefix_iff.mp start
    have running : s.isStopped sc.unstopped.cancel = false := rfl
    obtain ⟨here, later, s', visited, others, rfl, -⟩ := sc.gather_cons_ok pick whole
    obtain ⟨found, gathered, before⟩ := ih startRest others
    refine ⟨here ++ found, ?_, (List.prefix_append_right_inj here).mpr before⟩
    rw [gather_of_visit_ok pick running visited, gathered]
    rfl

theorem visit_ok (spans : sc.grammar.SpansWithin) (picks : ∀ p a, ∃ here, pick p a = .ok here)
    (p : Path) (s : Session) : ∃ here, (sc.visit pick p s).1 = .ok here := by
  obtain ⟨found, answered⟩ := requestPath_ok spans sc.workspace sc.cancel p s
  unfold visit
  split
  · next failed => rw [failed] at answered; cases answered
  · exact ⟨[], rfl⟩
  · next a _ _ => exact picks p a

theorem gather_ok (spans : sc.grammar.SpansWithin) (picks : ∀ p a, ∃ here, pick p a = .ok here)
    (files : List Path) (s : Session) : ∃ all, (sc.gather pick files s).1 = .ok all := by
  induction files generalizing s with
  | nil => exact ⟨[], rfl⟩
  | cons p rest ih =>
    cases stopped : s.isStopped sc.cancel with
    | true => exact ⟨[], by rw [gather_of_isStopped pick stopped]⟩
    | false =>
      obtain ⟨here, visited⟩ := sc.visit_ok pick spans picks p s.asked
      obtain ⟨later, gathered⟩ := ih (sc.visit pick p s.asked).2
      refine ⟨here ++ later, ?_⟩
      rw [gather_of_visit_ok pick stopped (Prod.ext visited rfl), gathered]
      rfl

end Gathering

/-! ## Definitions -/

/-- A search that may be told to stop finds what it would find, or nothing. -/
theorem findDefinition_interrupted (sc : Scanner) (target : DefinitionTarget) (files : List Path)
    (s : Session) :
    (sc.findDefinition target files s).1 = none ∨
      (sc.findDefinition target files s).1 =
        (sc.unstopped.findDefinition target files s).1 := by
  induction files generalizing s with
  | nil => exact .inl rfl
  | cons p rest ih =>
    have running : ¬ s.isStopped sc.unstopped.cancel = true := Bool.false_ne_true
    have sameFiles : sc.unstopped.workspace = sc.workspace := rfl
    rw [findDefinition, findDefinition, if_neg running, sameFiles]
    split
    · exact .inl rfl
    · cases sc.workspace.readText p with
      | error e => exact ih _
      | ok t =>
        dsimp only
        cases target.findIn t with
        | none => exact ih _
        | some location => exact .inr rfl

/-! ## Whole scans -/

/-- The system service of an analysed file, if it is one. -/
def servicesOf (_ : Path) (a : FileAnalysis) : Except Failure (List SystemService) :=
  .ok a.service.toList

/-- The boot timeline of an analysed file, if it is a target. -/
def timelinesOf (targets : List String) (p : Path) (a : FileAnalysis) :
    Except Failure (List BootTimeline) :=
  (bootTimeline? targets p.toString a.summary.className a.methods).map Option.toList

theorem timelinesOf_ok (targets : List String) (p : Path) (a : FileAnalysis) :
    ∃ here, timelinesOf targets p a = .ok here := by
  obtain ⟨timeline, made⟩ :=
    bootTimeline?_ok targets p.toString a.summary.className a.methods
  exact ⟨timeline.toList, by rw [timelinesOf, made]; rfl⟩

/-- How a scan that may be told to stop stands to the whole scan, and to the scans of its first
files. -/
structure CutShort {α : Type} (files : List Path) (after : List Path → Answer (List α))
    (whole cut : Answer (List α)) : Prop where
  /-- It comes to what the files before the stop come to, and leaves the cache that they leave. -/
  visited : ∃ visited, visited <+: files ∧ cut.1 = (after visited).1 ∧
    cut.2.cache = (after visited).2.cache
  /-- What it gives is the start of what the whole scan gives. -/
  found : ∀ all, whole.1 = .ok all → ∃ found, cut.1 = .ok found ∧ found <+: all

theorem gather_cutShort {α : Type} (sc : Scanner)
    (pick : Path → FileAnalysis → Except Failure (List α)) (files : List Path) (s : Session) :
    CutShort files (fun visited => sc.unstopped.gather pick visited s)
      (sc.unstopped.gather pick files s) (sc.gather pick files s) := by
  obtain ⟨visited, start, sameAnswer, sameCache⟩ := sc.gather_interrupted pick files s
  refine ⟨⟨visited, start, sameAnswer, sameCache⟩, fun all whole => ?_⟩
  obtain ⟨found, gathered, before⟩ := sc.gather_first pick start whole
  exact ⟨found, sameAnswer.trans gathered, before⟩

/-- A scan for services or for timelines that may be told to stop, at any question or any parse,
gives the start of what it would give, and leaves the cache as the first of its files leave it. A
definition is found as without the word to stop, or not at all. With trees that keep to their
sources the whole scans always give a list. -/
theorem scans_stop_early (sc : Scanner) (root : Path) (targets excluded : List String)
    (target : DefinitionTarget) (s : Session) :
    CutShort (sc.workspace.filesMatching root "*.java" excluded)
      (fun visited => sc.unstopped.gather servicesOf visited s)
      (sc.unstopped.services root excluded s) (sc.services root excluded s) ∧
    CutShort (sc.targetFiles root targets excluded)
      (fun visited => sc.unstopped.gather (timelinesOf targets) visited s)
      (sc.unstopped.timelines root targets excluded s) (sc.timelines root targets excluded s) ∧
    ((sc.definition target root excluded s).1 = none ∨
      (sc.definition target root excluded s).1 =
        (sc.unstopped.definition target root excluded s).1) ∧
    (sc.grammar.SpansWithin →
      (∃ all, (sc.unstopped.services root excluded s).1 = .ok all) ∧
      ∃ all, (sc.unstopped.timelines root targets excluded s).1 = .ok all) := by
  refine ⟨sc.gather_cutShort servicesOf _ s, sc.gather_cutShort (timelinesOf targets) _ s,
    sc.findDefinition_interrupted target _ s, fun spans => ⟨?_, ?_⟩⟩
  · exact sc.unstopped.gather_ok servicesOf spans (fun p a => ⟨_, rfl⟩) _ s
  · exact sc.unstopped.gather_ok (timelinesOf targets) spans (timelinesOf_ok targets) _ s

/-- A scanner of a directory with two files, told to stop at the fourth question. -/
def twoFiles : Scanner where
  grammar := blankGrammar
  workspace := {
    entries := [.directory "ws" [.file "A.java" [], .file "B.java" []]]
    cwd := ["ws"] }
  cancel := .atPoll 4

/-- The timelines of both files of `twoFiles`, in a new session. -/
def twoTimelines (sc : Scanner) : Answer (List BootTimeline) :=
  sc.timelines ⟨.relative, []⟩ ["A.java", "B.java"] [] { cache := { limit := 0 } }

theorem blankGrammar_spansWithin : blankGrammar.SpansWithin := by
  intro t c member
  obtain rfl : c = blankGrammar t := List.mem_singleton.mp member
  exact ⟨Int.le_refl 0, Int.le_refl 0, Int.natCast_nonneg _⟩

/-- The first file takes three questions, so the scan stops before the second. -/
theorem scans_stop_early_twoFiles :
    twoFiles.grammar.SpansWithin ∧
      ∃ found all, (twoTimelines twoFiles).1 = .ok found ∧
        (twoTimelines twoFiles.unstopped).1 = .ok all ∧ found <+: all ∧
        found.length = 1 ∧ all.length = 2 := by
  have early := twoFiles.scans_stop_early ⟨.relative, []⟩ ["A.java", "B.java"] []
    ⟨.jniMethod, "f"⟩ { cache := { limit := 0 } }
  have one : (twoTimelines twoFiles).1.map List.length = .ok 1 := by decide +kernel
  have two : (twoTimelines twoFiles.unstopped).1.map List.length = .ok 2 := by
    decide +kernel
  obtain ⟨all, whole⟩ := (early.2.2.2 blankGrammar_spansWithin).2
  obtain ⟨found, cut, start⟩ := early.2.1.found all whole
  rw [twoTimelines, cut] at one
  rw [twoTimelines, whole] at two
  exact ⟨blankGrammar_spansWithin, found, all, cut, whole, start, Except.ok.inj one,
    Except.ok.inj two⟩

end Scanner

end JavaSurvey
