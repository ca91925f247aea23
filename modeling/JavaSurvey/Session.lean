import JavaSurvey.Cache
import JavaSurvey.Log
import JavaSurvey.Workspace.Tree

/-!
# Sessions

A session is a cache at work. It counts how often it asked whether to stop and how often it
parsed, and keeps a log.

* `request` answers for a document, and `requestPath` for a file;
* a `Cancel` tells a session to stop, and never takes that back.
-/

namespace JavaSurvey

/-- Tells whether to stop, by how often that was asked, this time included, and by how often a
text was parsed. Once told, it stays so. -/
structure Cancel where
  requested : Nat → Nat → Bool
  stays : ∀ p p' q q', p ≤ p' → q ≤ q' → requested p q = true → requested p' q' = true

namespace Cancel

/-- Never tells to stop. -/
def never : Cancel where
  requested _ _ := false
  stays := by simp

/-- Tells to stop from the `n`-th question on. -/
def atPoll (n : Int) : Cancel where
  requested polls _ := n ≤ polls
  stays := by
    intro p p' q q' hp _ h
    simp only [decide_eq_true_eq] at h ⊢
    omega

/-- Tells to stop once the `n`-th parse has begun. -/
def afterParses (n : Int) : Cancel where
  requested _ parses := n ≤ parses
  stays := by
    intro p p' q q' _ hq h
    simp only [decide_eq_true_eq] at h ⊢
    omega

end Cancel

/-- A cache at work. -/
structure Session where
  cache : Cache
  /-- How often the session asked whether to stop. -/
  polls : Nat := 0
  /-- How often the session parsed a text. -/
  parses : Nat := 0
  /-- The events so far, latest first. -/
  log : List Event := []

/-- What an operation of a session gives, and the session after it. -/
abbrev Answer (α : Type) := Except Failure α × Session

namespace Session

/-- The session with counts at zero and an empty log. -/
def rest (s : Session) : Session :=
  { cache := s.cache }

/-- The session after it asked whether to stop. -/
def asked (s : Session) : Session :=
  { s with polls := s.polls + 1 }

/-- Whether the session is told to stop when it asks. -/
def isStopped (s : Session) (cancel : Cancel) : Bool :=
  cancel.requested (s.polls + 1) s.parses

/-- The session after an event. -/
def tell (s : Session) (level : Level) (teller message : String) : Session :=
  { s with log := ⟨level, teller, message⟩ :: s.log }

/-- The session after the cache tells of an event. -/
def cacheTells (s : Session) (level : Level) (message : String) : Session :=
  s.tell level "java_lens.cache" message

/-- The session after it is told which methods of a source are passed over. -/
def outlineTells (s : Session) (source : Text) (tree : Concrete) : Session :=
  match parse source tree with
  | .ok root =>
      (outlineNotices root).foldl (fun s notice => s.tell .debug "java_lens.summarizer" notice) s
  | .error _ => s

/-- The session after the analysis of a document is stored. -/
def store (s : Session) (d : Document) (a : FileAnalysis) : Session :=
  { s with cache := s.cache.store d a }

/-- The events of a session, earliest first. -/
def events (s : Session) : List Event :=
  s.log.reverse

end Session

/-- The analysis of a document that is not in the cache. -/
def analyzeNew (grammar : Grammar) (d : Document) (s : Session) :
    Answer (Option FileAnalysis) :=
  let tree := grammar d.text
  let s := { s with parses := s.parses + 1 }
  match analyze d.text d.fallback tree with
  | .ok a => (.ok (some a), (s.outlineTells d.text tree).store d a)
  | .error (.syntaxError offset) =>
      let reason := (Failure.syntaxError offset).message
      (.ok none, s.cacheTells .warning ("Could not analyze " ++ d.uri ++ ": " ++ reason))
  | .error e => (.error e, s)

/-- The analysis of a document: none if it is not Java, if the session is told to stop before it
parses, or if the grammar rejects the text; an empty one if the text is too large. -/
def request (grammar : Grammar) (cancel : Cancel) (d : Document) (s : Session) :
    Answer (Option FileAnalysis) :=
  match s.cache.standing d with
  | .otherLanguage => (.ok none, s)
  | .oversized =>
      let notice := s!"Skipping {d.uri}: {d.size} bytes exceeds {s.cache.limit}"
      (.ok (some (FileAnalysis.empty d.fallback)), s.cacheTells .debug notice)
  | .known e => (.ok (some e.analysis), s.cacheTells .debug ("Cache hit for " ++ d.uri))
  | .unknown =>
      if s.isStopped cancel then (.ok none, s.asked) else analyzeNew grammar d s.asked

/-- The analysis of a file: none if it cannot be read or if the session is told to stop. -/
def requestPath (grammar : Grammar) (w : Workspace) (cancel : Cancel) (p : Path) (s : Session) :
    Answer (Option FileAnalysis) :=
  match w.readDocument p with
  | .error e =>
      (.ok none, s.cacheTells .warning ("Could not read " ++ p.toString ++ ": " ++ e.message))
  | .ok d =>
      if s.isStopped cancel then (.ok none, s.asked) else request grammar cancel d s.asked

end JavaSurvey
