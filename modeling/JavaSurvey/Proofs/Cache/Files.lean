import JavaSurvey.Proofs.Analysis
import JavaSurvey.Proofs.Cache.History

/-!
# Requests for files

A request for a file reads the file and goes on as a request for its document. In between it asks
whether to stop, which a request for a document does only if it has to parse.

1. `request_agrees`: what a request gives depends on the cache and on whether it is told to stop;
2. `requestPath_delegates_iff`: a request for a file comes to what the request for its document
   comes to, exactly unless it hides it;
3. `requestPath_hides_entry`: told to stop, it hides an analysis that the cache already has.
-/

namespace JavaSurvey

/-- Two operations give the same and leave the same cache. -/
def Answer.Agrees {α : Type} (x y : Answer α) : Prop :=
  x.1 = y.1 ∧ x.2.cache = y.2.cache

/-! ## What a request depends on -/

/-- A new analysis is stored, and a failure leaves the cache alone. -/
theorem analyzeNew_cache (grammar : Grammar) (d : Document) (s : Session) :
    (analyzeNew grammar d s).2.cache =
      match analyze d.text d.fallback (grammar d.text) with
      | .ok a => s.cache.store d a
      | .error _ => s.cache := by
  simp only [analyzeNew]
  rcases analyze d.text d.fallback (grammar d.text) with e | a
  · cases e <;> rfl
  · dsimp only
    rw [Session.store,
      (outlineTells_cache { s with parses := s.parses + 1 } d.text (grammar d.text)).1]

/-- The analysis of a new document depends on nothing in a session but its cache. -/
theorem analyzeNew_agrees (grammar : Grammar) (d : Document) {s s' : Session}
    (same : s.cache = s'.cache) :
    (analyzeNew grammar d s).Agrees (analyzeNew grammar d s') := by
  refine ⟨?_, by rw [analyzeNew_cache, analyzeNew_cache, same]⟩
  simp only [analyzeNew]
  rcases analyze d.text d.fallback (grammar d.text) with e | a
  · cases e <;> rfl
  · rfl

/-- Nothing comes of a rejected text, and of no other. -/
theorem analyzeNew_eq_none_iff (grammar : Grammar) (d : Document) (s : Session) :
    (analyzeNew grammar d s).1 = .ok none ↔ grammar.Rejects d.text := by
  simp only [analyzeNew_answer, Grammar.Rejects, ← @analyze_eq_syntaxError_iff d.text d.fallback]
  rcases analyze d.text d.fallback (grammar d.text) with e | a
  · cases e <;> simp [answerOf]
  · simp [answerOf]

theorem analyzeNew_cache_of_rejects {grammar : Grammar} {d : Document}
    (rejects : grammar.Rejects d.text) (s : Session) :
    (analyzeNew grammar d s).2.cache = s.cache := by
  obtain ⟨offset, refused⟩ := rejects
  rw [analyzeNew_cache, analyze_eq_syntaxError_iff.mpr refused]

theorem analyzeNew_eq_some_iff (grammar : Grammar) (d : Document) (s : Session)
    (a : FileAnalysis) :
    (analyzeNew grammar d s).1 = .ok (some a) ↔
      analyze d.text d.fallback (grammar d.text) = .ok a := by
  rw [analyzeNew_answer]
  rcases analyze d.text d.fallback (grammar d.text) with e | a
  · cases e <;> simp [answerOf]
  · simp [answerOf]

theorem request_agrees (grammar : Grammar) (cancel : Cancel) (d : Document) {s s' : Session}
    (same : s.cache = s'.cache) (asStopped : s.isStopped cancel = s'.isStopped cancel) :
    (request grammar cancel d s).Agrees (request grammar cancel d s') := by
  simp only [request, ← same, ← asStopped]
  split
  · exact ⟨rfl, same⟩
  · exact ⟨rfl, same⟩
  · exact ⟨rfl, same⟩
  · split
    · exact ⟨rfl, same⟩
    · exact analyzeNew_agrees grammar d same

/-! ## Files and documents -/

/-- What the request for a document gives, and the request for its file does not. -/
inductive Hides (grammar : Grammar) (cancel : Cancel) (d : Document) (s : Session) : Prop
  /-- The session is told to stop, but the document is too large to be parsed. -/
  | oversized (told : s.isStopped cancel = true) (large : s.cache.standing d = .oversized)
  /-- The session is told to stop, but the cache has an analysis of the document. -/
  | known (told : s.isStopped cancel = true) {e : CacheEntry}
      (found : s.cache.standing d = .known e)
  /-- The session is told to stop the second time it asks, but the first question was the one before
  the parse. -/
  | between (running : s.isStopped cancel = false) (told : s.asked.isStopped cancel = true)
      (new : s.cache.standing d = .unknown) (accepted : ¬ grammar.Rejects d.text)

section ReadableFile

variable {w : Workspace} {p : Path} {d : Document} (read : w.readDocument p = .ok d)
  (grammar : Grammar) {cancel : Cancel} {s : Session}

include read

theorem requestPath_of_told (told : s.isStopped cancel = true) :
    requestPath grammar w cancel p s = (.ok none, s.asked) := by
  simp only [requestPath, read, told, if_true]

theorem requestPath_of_running (running : s.isStopped cancel = false) :
    requestPath grammar w cancel p s = request grammar cancel d s.asked := by
  simp only [requestPath, read, running, Bool.false_eq_true, if_false]

/-- Where something is hidden, the file gives nothing and the document something. -/
theorem Hides.apart (hides : Hides grammar cancel d s) :
    (requestPath grammar w cancel p s).1 = .ok none ∧
    (requestPath grammar w cancel p s).2.cache = s.cache ∧
    (request grammar cancel d s).1 ≠ .ok none := by
  cases hides with
  | oversized told large =>
    rw [requestPath_of_told read grammar told, request, large]
    exact ⟨rfl, rfl, by simp⟩
  | known told found =>
    rw [requestPath_of_told read grammar told, request, found]
    exact ⟨rfl, rfl, by simp⟩
  | between running told new accepted =>
    have newToo : s.asked.cache.standing d = .unknown := new
    rw [requestPath_of_running read grammar running, request, newToo, request, new]
    simp only [told, running, if_true, Bool.false_eq_true, if_false, ne_eq]
    exact ⟨trivial, rfl, fun nothing => accepted ((analyzeNew_eq_none_iff _ _ _).mp nothing)⟩

/-- Where nothing is hidden, file and document come to the same. -/
theorem agrees_of_not_hides (shown : ¬ Hides grammar cancel d s) :
    (requestPath grammar w cancel p s).Agrees (request grammar cancel d s) := by
  cases stopped : s.isStopped cancel with
  | true =>
    rw [requestPath_of_told read grammar stopped, request]
    cases standing : s.cache.standing d with
    | otherLanguage => exact ⟨rfl, rfl⟩
    | oversized => exact absurd (.oversized stopped standing) shown
    | known e => exact absurd (.known stopped standing) shown
    | unknown =>
      dsimp only
      rw [if_pos stopped]
      exact ⟨rfl, rfl⟩
  | false =>
    rw [requestPath_of_running read grammar stopped]
    cases later : s.asked.isStopped cancel with
    | false => exact request_agrees grammar cancel d rfl (later.trans stopped.symm)
    | true =>
      have same : s.asked.cache.standing d = s.cache.standing d := rfl
      rw [request, same, request]
      cases standing : s.cache.standing d with
      | otherLanguage => exact ⟨rfl, rfl⟩
      | oversized => exact ⟨rfl, rfl⟩
      | known e => exact ⟨rfl, rfl⟩
      | unknown =>
        have rejects : grammar.Rejects d.text :=
          Classical.byContradiction fun accepted => shown (.between stopped later standing accepted)
        simp only [later, stopped, if_true, Bool.false_eq_true, if_false]
        exact ⟨((analyzeNew_eq_none_iff grammar d _).mpr rejects).symm,
          (analyzeNew_cache_of_rejects rejects s.asked).symm⟩

/-- A request for a file gives what the request for its document gives and leaves the cache that it
leaves, exactly unless something is hidden. Then the file gives nothing, the cache stays as it is,
and the document would have given an analysis or a failure. -/
theorem requestPath_delegates_iff (cancel : Cancel) (s : Session) :
    ((requestPath grammar w cancel p s).Agrees (request grammar cancel d s) ↔
      ¬ Hides grammar cancel d s) ∧
    (Hides grammar cancel d s →
      (requestPath grammar w cancel p s).1 = .ok none ∧
      (requestPath grammar w cancel p s).2.cache = s.cache ∧
      (request grammar cancel d s).1 ≠ .ok none) := by
  refine ⟨⟨fun agrees hides => ?_, agrees_of_not_hides read grammar⟩, Hides.apart read grammar⟩
  obtain ⟨nothing, -, something⟩ := hides.apart read grammar
  exact something (agrees.1.symm.trans nothing)

end ReadableFile

/-- A directory with one file, without text. -/
def blankWorkspace : Workspace where
  entries := [.directory "ws" [.file "A.java" []]]
  cwd := ["ws"]

/-- The file of `blankWorkspace`. -/
def blankPath : Path := ⟨.relative, ["A.java"]⟩

/-- The document of the file of `blankWorkspace`. -/
def blankFile : Document := blankDocument "file:///ws/A.java" "A.java"

/-- The session after the file of `blankWorkspace` was asked for. -/
def askedBefore : Session :=
  sessionAfter blankGrammar 0 [.file blankWorkspace .never blankPath]

theorem read_blankFile : blankWorkspace.readDocument blankPath = .ok blankFile := by
  decide +kernel

/-- The cache has an analysis of the file, which a request for the document gives. -/
theorem request_blankFile :
    (request blankGrammar (.atPoll 1) blankFile askedBefore).1 =
      .ok (some (FileAnalysis.empty "A")) := by
  decide +kernel

theorem hides_blankFile : Hides blankGrammar (.atPoll 1) blankFile askedBefore := by
  have isKnown : (match askedBefore.cache.standing blankFile with
      | .known _ => true
      | _ => false) = true := by
    decide +kernel
  cases standing : askedBefore.cache.standing blankFile with
  | known e => exact .known (by decide +kernel) standing
  | _ => rw [standing] at isKnown; cases isKnown

theorem requestPath_delegates_blankFile :
    blankWorkspace.readDocument blankPath = .ok blankFile ∧
      Hides blankGrammar (.atPoll 1) blankFile askedBefore ∧
      (requestPath blankGrammar blankWorkspace (.atPoll 1) blankPath askedBefore).1 = .ok none ∧
      (requestPath blankGrammar blankWorkspace (.atPoll 1) blankPath askedBefore).2.cache =
        askedBefore.cache := by
  have delegates := requestPath_delegates_iff read_blankFile blankGrammar (.atPoll 1) askedBefore
  obtain ⟨nothing, kept, -⟩ := delegates.2 hides_blankFile
  exact ⟨read_blankFile, hides_blankFile, nothing, kept⟩

/-- Told to stop, a request for a file gives nothing although the cache has its analysis. -/
theorem requestPath_hides_entry :
    ∃ a, (request blankGrammar (.atPoll 1) blankFile askedBefore).1 = .ok (some a) ∧
      blankWorkspace.readDocument blankPath = .ok blankFile ∧
      (requestPath blankGrammar blankWorkspace (.atPoll 1) blankPath askedBefore).1 ≠
        .ok (some a) := by
  refine ⟨FileAnalysis.empty "A", request_blankFile, read_blankFile, ?_⟩
  rw [(hides_blankFile.apart read_blankFile blankGrammar).1]
  simp

end JavaSurvey
