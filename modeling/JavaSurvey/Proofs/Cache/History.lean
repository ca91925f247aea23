import JavaSurvey.Session
import Mathlib.Data.List.Induction

/-!
# Histories of a cache

A cache is asked for documents and for files, and told to drop entries. What it holds in the end
depends on the whole history of these uses.

1. `request_requested`: a request comes to one of the five ends that `Requested` lists;
2. `CacheUse.apply_effect`: a use drops the entry of an address, stores a new one there, or leaves
   it alone;
3. `explains_sessionAfter`: by induction on the history, the entry of an address is explained by
   what happened to that address;
4. `sessionAfter_holds_latest`: an address has an entry exactly if a document was analysed there
   since its entry was last dropped, and the entry is that of the latest one.
-/

namespace JavaSurvey

/-! ## Entries -/

namespace Cache

theorem lookup_filter_ne (entries : List (String × CacheEntry)) (uri other : String) :
    (entries.filter (·.1 != uri)).lookup other =
      if other = uri then none else entries.lookup other := by
  induction entries with
  | nil => simp
  | cons entry rest ih =>
    obtain ⟨key, value⟩ := entry
    by_cases dropped : key = uri
    · subst dropped
      rw [List.filter_cons_of_neg (by simp), ih]
      by_cases same : other = key
      · simp only [same, if_true]
      · simp only [same, if_false, List.lookup_cons, beq_eq_false_iff_ne.mpr same]
    · rw [List.filter_cons_of_pos (by simp [dropped]), List.lookup_cons, List.lookup_cons, ih]
      by_cases same : other = key
      · subst same
        simp only [beq_self_eq_true, dropped, if_false]
      · simp only [beq_eq_false_iff_ne.mpr same]

@[simp] theorem find?_clear (c : Cache) (uri : String) : c.clear.find? uri = none := rfl

@[simp] theorem find?_erase (c : Cache) (uri other : String) :
    (c.erase uri).find? other = if other = uri then none else c.find? other :=
  lookup_filter_ne c.entries uri other

@[simp] theorem find?_store (c : Cache) (d : Document) (a : FileAnalysis) (uri : String) :
    (c.store d a).find? uri =
      if uri = d.uri then some ⟨JavaSurvey.fingerprint d.text, d.size, a, c.stored⟩
      else c.find? uri := by
  have others := find?_erase c d.uri uri
  simp only [find?] at others ⊢
  by_cases same : uri = d.uri
  · simp [store, same]
  · simp only [store, List.lookup_cons, beq_eq_false_iff_ne.mpr same, others, same, if_false]

theorem standing_eq_unknown_iff {c : Cache} {d : Document} :
    c.standing d = .unknown ↔ d.isJava = true ∧ d.size ≤ c.limit ∧ c.answer? d = none := by
  unfold standing
  cases d.isJava with
  | false => simp
  | true =>
    by_cases large : c.limit < d.size
    · simp [large, Int.not_le.mpr large]
    · cases found : c.answer? d with
      | some e => simp [large]
      | none => simp [large, Int.not_lt.mp large]

end Cache

/-! ## Requests -/

theorem outlineTells_cache (s : Session) (source : Text) (tree : Concrete) :
    (s.outlineTells source tree).cache = s.cache ∧
      (s.outlineTells source tree).parses = s.parses := by
  unfold Session.outlineTells
  split
  · next root _ =>
    generalize outlineNotices root = notices
    induction notices generalizing s with
    | nil => exact ⟨rfl, rfl⟩
    | cons notice rest ih => exact ih (s.tell .debug "java_lens.summarizer" notice)
  · exact ⟨rfl, rfl⟩

/-- What a request for a document can come to: it is passed over, too large, answered by an entry,
analysed and stored, or refused. -/
inductive Requested (grammar : Grammar) (d : Document) (s : Session) :
    Answer (Option FileAnalysis) → Prop
  | passed {s' : Session} (kept : s'.cache = s.cache) (unparsed : s'.parses = s.parses) :
      Requested grammar d s (.ok none, s')
  | oversized {s' : Session} (kept : s'.cache = s.cache) (unparsed : s'.parses = s.parses)
      (java : d.isJava = true) (large : s.cache.limit < d.size) :
      Requested grammar d s (.ok (some (FileAnalysis.empty d.fallback)), s')
  | known {s' : Session} {e : CacheEntry} (kept : s'.cache = s.cache)
      (unparsed : s'.parses = s.parses) (java : d.isJava = true) (fits : d.size ≤ s.cache.limit)
      (found : s.cache.answer? d = some e) :
      Requested grammar d s (.ok (some e.analysis), s')
  | analyzed {s' : Session} {a : FileAnalysis} (stored : s'.cache = s.cache.store d a)
      (parsed : s'.parses = s.parses + 1) (java : d.isJava = true)
      (fits : d.size ≤ s.cache.limit) (unknown : s.cache.answer? d = none)
      (succeeds : analyze d.text d.fallback (grammar d.text) = .ok a) :
      Requested grammar d s (.ok (some a), s')
  | refused {s' : Session} {answer : Except Failure (Option FileAnalysis)}
      (kept : s'.cache = s.cache) (parsed : s'.parses = s.parses + 1)
      (unanswered : ∀ a, answer ≠ .ok (some a))
      (fails : ∀ a, analyze d.text d.fallback (grammar d.text) ≠ .ok a) :
      Requested grammar d s (answer, s')

theorem analyzeNew_requested (grammar : Grammar) {d : Document} {s : Session}
    (java : d.isJava = true) (fits : d.size ≤ s.cache.limit)
    (unknown : s.cache.answer? d = none) :
    Requested grammar d s (analyzeNew grammar d s) := by
  simp only [analyzeNew]
  split
  · next a succeeds =>
    obtain ⟨kept, parses⟩ :=
      outlineTells_cache { s with parses := s.parses + 1 } d.text (grammar d.text)
    exact .analyzed (by simp only [Session.store, kept]) parses java fits unknown succeeds
  · next offset fails =>
    exact .refused rfl rfl (by simp) (by simp [fails])
  · next e _ fails =>
    exact .refused rfl rfl (by simp) (by simp [fails])

theorem analyzeNew_parses (grammar : Grammar) (d : Document) (s : Session) :
    (analyzeNew grammar d s).2.parses = s.parses + 1 := by
  simp only [analyzeNew]
  split
  · exact (outlineTells_cache { s with parses := s.parses + 1 } d.text (grammar d.text)).2
  · rfl
  · rfl

/-- The answer for a text that is analysed, which is nothing if the grammar rejects the text. -/
def answerOf : Except Failure FileAnalysis → Except Failure (Option FileAnalysis)
  | .ok a => .ok (some a)
  | .error (.syntaxError _) => .ok none
  | .error e => .error e

theorem analyzeNew_answer (grammar : Grammar) (d : Document) (s : Session) :
    (analyzeNew grammar d s).1 = answerOf (analyze d.text d.fallback (grammar d.text)) := by
  simp only [analyzeNew]
  split
  · next a succeeds => rw [succeeds, answerOf]
  · next offset fails => rw [fails, answerOf]
  · next e notSyntax fails =>
    rw [fails]
    cases e with
    | syntaxError offset => exact absurd rfl (notSyntax offset)
    | _ => rfl

/-- A document that no entry answers for is analysed, unless the session is told to stop. -/
theorem request_eq_analyzeNew (grammar : Grammar) {cancel : Cancel} {d : Document} {s : Session}
    (java : d.isJava = true) (fits : d.size ≤ s.cache.limit) (unknown : s.cache.answer? d = none)
    (running : s.isStopped cancel = false) :
    request grammar cancel d s = analyzeNew grammar d s.asked := by
  rw [request, Cache.standing_eq_unknown_iff.mpr ⟨java, fits, unknown⟩]
  exact if_neg (by simp [running])

/-- Asking whether to stop is no part of what a request comes to. -/
theorem Requested.of_asked {grammar : Grammar} {d : Document} {s : Session}
    {answer : Answer (Option FileAnalysis)} (requested : Requested grammar d s.asked answer) :
    Requested grammar d s answer := by
  cases requested with
  | passed kept unparsed => exact .passed kept unparsed
  | oversized kept unparsed java large => exact .oversized kept unparsed java large
  | known kept unparsed java fits found => exact .known kept unparsed java fits found
  | analyzed stored parsed java fits unknown succeeds =>
    exact .analyzed stored parsed java fits unknown succeeds
  | refused kept parsed unanswered fails => exact .refused kept parsed unanswered fails

theorem request_requested (grammar : Grammar) (cancel : Cancel) (d : Document) (s : Session) :
    Requested grammar d s (request grammar cancel d s) := by
  unfold request Cache.standing
  by_cases java : d.isJava = true
  · by_cases large : s.cache.limit < d.size
    · simp only [java, large, Bool.not_true, Bool.false_eq_true, if_false, if_true]
      exact .oversized rfl rfl java large
    · have fits : d.size ≤ s.cache.limit := by omega
      simp only [java, large, Bool.not_true, Bool.false_eq_true, if_false]
      cases found : s.cache.answer? d with
      | some e => exact .known rfl rfl java fits found
      | none =>
        dsimp only
        split
        · exact .passed rfl rfl
        · exact .of_asked (analyzeNew_requested grammar java fits found)
  · simp only [java, Bool.not_false, if_true]
    exact .passed rfl rfl

theorem requestPath_requested {w : Workspace} {p : Path} {d : Document}
    (read : w.readDocument p = .ok d) (grammar : Grammar) (cancel : Cancel) (s : Session) :
    Requested grammar d s (requestPath grammar w cancel p s) := by
  simp only [requestPath, read]
  split
  · exact .passed rfl rfl
  · exact .of_asked (request_requested grammar cancel d s.asked)

/-- An analysis is answered in three ways: it is empty because the text is too large, it is that of
an entry, or it is new. -/
theorem Requested.of_answered {grammar : Grammar} {d : Document} {s : Session}
    {answer : Answer (Option FileAnalysis)} {a : FileAnalysis}
    (requested : Requested grammar d s answer) (answered : answer.1 = .ok (some a)) :
    (s.cache.limit < d.size ∧ a = FileAnalysis.empty d.fallback) ∨
    (d.size ≤ s.cache.limit ∧ ∃ e, s.cache.answer? d = some e ∧ a = e.analysis) ∨
    (d.size ≤ s.cache.limit ∧ s.cache.answer? d = none ∧
      analyze d.text d.fallback (grammar d.text) = .ok a) := by
  cases requested with
  | passed => cases answered
  | oversized _ _ _ large =>
    simp only [Except.ok.injEq, Option.some.injEq] at answered
    exact .inl ⟨large, answered.symm⟩
  | known _ _ _ fits found =>
    simp only [Except.ok.injEq, Option.some.injEq] at answered
    exact .inr (.inl ⟨fits, _, found, answered.symm⟩)
  | analyzed _ _ _ fits unknown succeeds =>
    simp only [Except.ok.injEq, Option.some.injEq] at answered
    exact .inr (.inr ⟨fits, unknown, answered ▸ succeeds⟩)
  | refused _ _ unanswered _ => exact absurd answered (unanswered a)

/-- No request changes the size above which a text is not analysed. -/
theorem Requested.limit_eq {grammar : Grammar} {d : Document} {s : Session}
    {answer : Answer (Option FileAnalysis)} (requested : Requested grammar d s answer) :
    answer.2.cache.limit = s.cache.limit := by
  cases requested with
  | passed kept => rw [kept]
  | oversized kept => rw [kept]
  | known kept => rw [kept]
  | analyzed stored => rw [stored]; rfl
  | refused kept => rw [kept]

/-! ## Uses -/

/-- A use of a cache: it is asked for a document or for a file of a workspace, or it drops the entry
of an address or all entries. -/
inductive CacheUse where
  | document (cancel : Cancel) (d : Document)
  | file (w : Workspace) (cancel : Cancel) (p : Path)
  | drop (uri : String)
  | dropAll

namespace CacheUse

/-- The session after a use. -/
def apply (grammar : Grammar) (s : Session) : CacheUse → Session
  | document cancel d => (request grammar cancel d s).2
  | file w cancel p => (requestPath grammar w cancel p s).2
  | drop uri => { s with cache := s.cache.erase uri }
  | dropAll => { s with cache := s.cache.clear }

/-- The document that is asked for. -/
def document? : CacheUse → Option Document
  | document _ d => some d
  | file w _ p => (w.readDocument p).toOption
  | drop _ => none
  | dropAll => none

/-- Whether a use drops the entry of an address. -/
def Drops (uri : String) : CacheUse → Prop
  | document _ _ => False
  | file _ _ _ => False
  | drop dropped => dropped = uri
  | dropAll => True

/-- A use of a session asks for a document, and the document is analysed for it. -/
structure Analyzes (grammar : Grammar) (s : Session) (use : CacheUse) (d : Document)
    (a : FileAnalysis) : Prop where
  asks : use.document? = some d
  parses : (use.apply grammar s).parses = s.parses + 1
  succeeds : analyze d.text d.fallback (grammar d.text) = .ok a

theorem not_drops_of_asks {use : CacheUse} {d : Document} (asks : use.document? = some d)
    (uri : String) : ¬ use.Drops uri := by
  cases use with
  | document cancel d => exact id
  | file w cancel p => exact id
  | drop dropped => cases asks
  | dropAll => cases asks

/-- What a use does to the entry of an address: it drops it, stores that of a document which it
analyses, or leaves it alone. -/
inductive Effect (grammar : Grammar) (s : Session) (use : CacheUse) (uri : String)
    (entry : Option CacheEntry) : Prop
  | dropped (drops : use.Drops uri) (gone : entry = none)
  | stored {d : Document} {a : FileAnalysis} {serial : Nat}
      (analyzes : Analyzes grammar s use d a) (here : d.uri = uri) (java : d.isJava = true)
      (fits : d.size ≤ s.cache.limit)
      (fresh : entry = some ⟨fingerprint d.text, d.size, a, serial⟩)
  | kept (undropped : ¬ use.Drops uri)
      (elsewhere : ∀ d a, Analyzes grammar s use d a → d.uri ≠ uri)
      (same : entry = s.cache.find? uri)

/-- A use that is not counted as a parse, or whose analysis fails, leaves every entry alone. -/
theorem Effect.of_cache_eq {grammar : Grammar} {s : Session} {use : CacheUse} {d : Document}
    (asks : use.document? = some d) (unanalyzed : ∀ a, ¬ Analyzes grammar s use d a)
    (same : (use.apply grammar s).cache = s.cache) (uri : String) :
    Effect grammar s use uri ((use.apply grammar s).cache.find? uri) := by
  refine .kept (not_drops_of_asks asks uri) (fun d' a analyzes => ?_) (by rw [same])
  have sameDocument : d' = d := Option.some.inj (analyzes.asks.symm.trans asks)
  exact absurd (sameDocument ▸ analyzes) (unanalyzed a)

/-- A use that makes a request has the effect of the request. -/
theorem Effect.of_requested {grammar : Grammar} {s : Session} {use : CacheUse} {d : Document}
    {answer : Answer (Option FileAnalysis)} (asks : use.document? = some d)
    (requested : Requested grammar d s answer) (gives : use.apply grammar s = answer.2)
    (uri : String) : Effect grammar s use uri ((use.apply grammar s).cache.find? uri) := by
  have unanalyzed (unparsed : answer.2.parses = s.parses) (a : FileAnalysis) :
      ¬ Analyzes grammar s use d a := by
    intro analyzes
    have parses := analyzes.parses
    rw [gives] at parses
    omega
  cases requested with
  | passed same unparsed => exact of_cache_eq asks (unanalyzed unparsed) (by rw [gives, same]) uri
  | oversized same unparsed =>
    exact of_cache_eq asks (unanalyzed unparsed) (by rw [gives, same]) uri
  | known same unparsed => exact of_cache_eq asks (unanalyzed unparsed) (by rw [gives, same]) uri
  | refused same _ _ fails =>
    exact of_cache_eq asks (fun a analyzes => fails a analyzes.succeeds) (by rw [gives, same]) uri
  | @analyzed s' a stored parsed java fits _ succeeds =>
    have analyzes : Analyzes grammar s use d a := ⟨asks, by rw [gives, parsed], succeeds⟩
    have entry : (use.apply grammar s).cache.find? uri = (s.cache.store d a).find? uri := by
      rw [gives, stored]
    rw [Cache.find?_store] at entry
    split at entry
    · next here => exact .stored analyzes here.symm java fits entry
    · next elsewhere =>
      refine .kept (not_drops_of_asks asks uri) (fun d' a' analyzes' => ?_) entry
      have sameDocument : d' = d := Option.some.inj (analyzes'.asks.symm.trans asks)
      rw [sameDocument]
      exact Ne.symm elsewhere

/-- What one use does to the entry of an address. -/
theorem apply_effect (grammar : Grammar) (s : Session) (use : CacheUse) (uri : String) :
    Effect grammar s use uri ((use.apply grammar s).cache.find? uri) := by
  cases use with
  | document cancel d => exact .of_requested rfl (request_requested grammar cancel d s) rfl uri
  | file w cancel p =>
    cases read : w.readDocument p with
    | error e =>
      have unasked : (file w cancel p).document? = none := by rw [document?, read]; rfl
      refine .kept id (fun d a analyzes => ?_) (by rw [apply, requestPath, read]; rfl)
      rw [analyzes.asks] at unasked
      cases unasked
    | ok d =>
      have asks : (file w cancel p).document? = some d := by rw [document?, read]; rfl
      exact .of_requested asks (requestPath_requested read grammar cancel s) rfl uri
  | drop dropped =>
    have entry := Cache.find?_erase s.cache dropped uri
    split at entry
    · next here => exact .dropped here.symm entry
    · next elsewhere =>
      exact .kept (fun drops => elsewhere drops.symm) (fun d a analyzes => nomatch analyzes.asks)
        entry
  | dropAll => exact .dropped trivial (Cache.find?_clear s.cache uri)

theorem apply_limit (grammar : Grammar) (s : Session) (use : CacheUse) :
    (use.apply grammar s).cache.limit = s.cache.limit := by
  cases use with
  | document cancel d => exact (request_requested grammar cancel d s).limit_eq
  | file w cancel p =>
    cases read : w.readDocument p with
    | error e => rw [apply, requestPath, read]; rfl
    | ok d => exact (requestPath_requested read grammar cancel s).limit_eq
  | drop dropped => rfl
  | dropAll => rfl

end CacheUse

/-! ## Histories -/

section History

variable (grammar : Grammar) (limit : Int)

/-- The session after a history of uses that began with an empty cache. -/
def sessionAfter (uses : List CacheUse) : Session :=
  uses.foldl (CacheUse.apply grammar) { cache := { limit := limit } }

@[simp] theorem sessionAfter_concat (uses : List CacheUse) (use : CacheUse) :
    sessionAfter grammar limit (uses ++ [use]) =
      use.apply grammar (sessionAfter grammar limit uses) := by
  simp [sessionAfter]

theorem sessionAfter_limit (uses : List CacheUse) :
    (sessionAfter grammar limit uses).cache.limit = limit := by
  induction uses using List.reverseRecOn with
  | nil => rfl
  | append_singleton before use ih => rw [sessionAfter_concat, CacheUse.apply_limit, ih]

/-- A history has an `i`-th use, which together with the uses before it is as described. -/
def HappensAt (kind : List CacheUse → CacheUse → Prop) (uses : List CacheUse) (i : Nat) : Prop :=
  ∃ use, uses[i]? = some use ∧ kind (uses.take i) use

/-- The `i`-th use of a history drops the entry of an address. -/
def DroppedAt (uri : String) (uses : List CacheUse) (i : Nat) : Prop :=
  HappensAt (fun _ use => use.Drops uri) uses i

/-- In the `i`-th use of a history a document of an address is analysed. -/
def AnalyzedAt (uri : String) (d : Document) (a : FileAnalysis) (uses : List CacheUse) (i : Nat) :
    Prop :=
  HappensAt
    (fun before use => use.Analyzes grammar (sessionAfter grammar limit before) d a ∧ d.uri = uri)
    uses i

/-- The `i`-th use of a history is the latest in which a document of an address is analysed, and
the address is not dropped after it. -/
structure LatestAt (uri : String) (d : Document) (a : FileAnalysis) (uses : List CacheUse)
    (i : Nat) : Prop where
  analyzed : AnalyzedAt grammar limit uri d a uses i
  undropped : ∀ j, i < j → ¬ DroppedAt uri uses j
  latest : ∀ j, i < j → ∀ d' a', ¬ AnalyzedAt grammar limit uri d' a' uses j

end History

/-- Only the last use of a history is new to it. -/
theorem happensAt_concat {kind : List CacheUse → CacheUse → Prop} {before : List CacheUse}
    {use : CacheUse} {i : Nat} :
    HappensAt kind (before ++ [use]) i ↔
      HappensAt kind before i ∨ (i = before.length ∧ kind before use) := by
  unfold HappensAt
  rcases Nat.lt_trichotomy i before.length with earlier | last | later
  · have different : i ≠ before.length := by omega
    simp [List.getElem?_append_left earlier, List.take_append_of_le_length (Nat.le_of_lt earlier),
      different]
  · subst last
    simp
  · have beyond : (before ++ [use])[i]? = none := by
      rw [List.getElem?_eq_none_iff, List.length_append, List.length_singleton]
      omega
    have different : i ≠ before.length := by omega
    simp [beyond, List.getElem?_eq_none (Nat.le_of_lt later), different]

theorem HappensAt.lt_length {kind : List CacheUse → CacheUse → Prop} {uses : List CacheUse}
    {i : Nat} (happens : HappensAt kind uses i) : i < uses.length := by
  obtain ⟨use, found, -⟩ := happens
  exact (List.getElem?_eq_some_iff.mp found).1

/-- A use that neither drops an address nor analyses a document there leaves the latest analysis as
it is. -/
theorem LatestAt.concat {grammar : Grammar} {limit : Int} {uri : String} {d : Document}
    {a : FileAnalysis} {before : List CacheUse} {i : Nat} {use : CacheUse}
    (latestAt : LatestAt grammar limit uri d a before i) (undropped : ¬ use.Drops uri)
    (elsewhere : ∀ d' a', use.Analyzes grammar (sessionAfter grammar limit before) d' a' →
      d'.uri ≠ uri) :
    LatestAt grammar limit uri d a (before ++ [use]) i where
  analyzed := happensAt_concat.mpr (.inl latestAt.analyzed)
  undropped j later happens := by
    rcases happensAt_concat.mp happens with earlier | ⟨-, drops⟩
    · exact latestAt.undropped j later earlier
    · exact undropped drops
  latest j later d' a' happens := by
    rcases happensAt_concat.mp happens with earlier | ⟨-, analyzes, here⟩
    · exact latestAt.latest j later d' a' earlier
    · exact elsewhere d' a' analyzes here

/-- There is only one latest analysis. -/
theorem LatestAt.unique {grammar : Grammar} {limit : Int} {uri : String} {d d' : Document}
    {a a' : FileAnalysis} {uses : List CacheUse} {i j : Nat}
    (first : LatestAt grammar limit uri d a uses i)
    (second : LatestAt grammar limit uri d' a' uses j) : d = d' ∧ a = a' := by
  rcases Nat.lt_trichotomy i j with before | same | after
  · exact absurd second.analyzed (first.latest j before d' a')
  · subst same
    obtain ⟨use, found, analyzes, -⟩ := first.analyzed
    obtain ⟨use', found', analyzes', -⟩ := second.analyzed
    cases found.symm.trans found'
    cases analyzes.asks.symm.trans analyzes'.asks
    cases analyzes.succeeds.symm.trans analyzes'.succeeds
    exact ⟨rfl, rfl⟩
  · exact absurd first.analyzed (second.latest i after d a)

/-- An entry is that of a document and its analysis, and such a document may have an entry. -/
structure CacheEntry.IsOf (e : CacheEntry) (limit : Int) (d : Document) (a : FileAnalysis) :
    Prop where
  analysis : e.analysis = a
  fingerprint : e.fingerprint = JavaSurvey.fingerprint d.text
  size : e.size = d.size
  java : d.isJava = true
  fits : d.size ≤ limit

/-- What a history says of the entry of an address: it is that of the latest analysis, and if there
is none, whatever was analysed is dropped since. -/
def Explains (grammar : Grammar) (limit : Int) (uri : String) (uses : List CacheUse) :
    Option CacheEntry → Prop
  | some e => ∃ i d a, LatestAt grammar limit uri d a uses i ∧ e.IsOf limit d a
  | none => ∀ i d a, AnalyzedAt grammar limit uri d a uses i → ∃ j, i < j ∧ DroppedAt uri uses j

/-- One more use is explained by its effect. -/
theorem Explains.concat {grammar : Grammar} {limit : Int} {uri : String} {before : List CacheUse}
    {use : CacheUse} {entry : Option CacheEntry}
    (explains : Explains grammar limit uri before
      ((sessionAfter grammar limit before).cache.find? uri))
    (effect : use.Effect grammar (sessionAfter grammar limit before) uri entry) :
    Explains grammar limit uri (before ++ [use]) entry := by
  -- The new use is at the index `before.length`, so nothing can happen after it.
  have last {kind : List CacheUse → CacheUse → Prop} {j : Nat} (later : before.length < j) :
      ¬ HappensAt kind (before ++ [use]) j := by
    intro happens
    have bound := happens.lt_length
    rw [List.length_append, List.length_singleton] at bound
    omega
  cases effect with
  | dropped drops gone =>
    rw [gone]
    intro i d a analyzed
    rcases happensAt_concat.mp analyzed with earlier | ⟨-, analyzes, -⟩
    · exact ⟨before.length, earlier.lt_length, happensAt_concat.mpr (.inr ⟨rfl, drops⟩)⟩
    · exact absurd drops (CacheUse.not_drops_of_asks analyzes.asks uri)
  | @stored d a serial analyzes here java fits fresh =>
    rw [fresh]
    rw [sessionAfter_limit] at fits
    refine ⟨before.length, d, a, ⟨?_, fun j later => last later, fun j later d' a' => last later⟩,
      ⟨rfl, rfl, rfl, java, fits⟩⟩
    exact happensAt_concat.mpr (.inr ⟨rfl, analyzes, here⟩)
  | kept undropped elsewhere same =>
    rw [same]
    cases found : (sessionAfter grammar limit before).cache.find? uri with
    | some e =>
      rw [found] at explains
      obtain ⟨i, d, a, latestAt, isOf⟩ := explains
      exact ⟨i, d, a, latestAt.concat undropped elsewhere, isOf⟩
    | none =>
      rw [found] at explains
      intro i d a analyzed
      rcases happensAt_concat.mp analyzed with earlier | ⟨-, analyzes, here⟩
      · obtain ⟨j, later, dropped⟩ := explains i d a earlier
        exact ⟨j, later, happensAt_concat.mpr (.inl dropped)⟩
      · exact absurd here (elsewhere d a analyzes)

theorem explains_sessionAfter (grammar : Grammar) (limit : Int) (uri : String)
    (uses : List CacheUse) :
    Explains grammar limit uri uses ((sessionAfter grammar limit uses).cache.find? uri) := by
  induction uses using List.reverseRecOn with
  | nil => intro i d a analyzed; exact absurd analyzed.lt_length (Nat.not_lt_zero i)
  | append_singleton before use ih =>
    rw [sessionAfter_concat]
    exact ih.concat (CacheUse.apply_effect grammar (sessionAfter grammar limit before) use uri)

/-- The latest analysis has an entry. -/
theorem LatestAt.find? {grammar : Grammar} {limit : Int} {uri : String} {d : Document}
    {a : FileAnalysis} {uses : List CacheUse} {i : Nat}
    (latestAt : LatestAt grammar limit uri d a uses i) :
    ∃ e, (sessionAfter grammar limit uses).cache.find? uri = some e ∧ e.IsOf limit d a := by
  have explains := explains_sessionAfter grammar limit uri uses
  cases found : (sessionAfter grammar limit uses).cache.find? uri with
  | some e =>
    rw [found] at explains
    obtain ⟨j, d', a', other, isOf⟩ := explains
    obtain ⟨rfl, rfl⟩ := latestAt.unique other
    exact ⟨e, rfl, isOf⟩
  | none =>
    rw [found] at explains
    obtain ⟨j, later, dropped⟩ := explains i d a latestAt.analyzed
    exact absurd dropped (latestAt.undropped j later)

/-- After any history an address has an entry exactly if a document was analysed there and the
address was not dropped since. The entry is that of the latest such document, which is in Java and
within the limit. -/
theorem sessionAfter_holds_latest (grammar : Grammar) (limit : Int) (uses : List CacheUse)
    (uri : String) :
    ((sessionAfter grammar limit uses).cache.contains uri = true ↔
      ∃ i, (∃ d a, AnalyzedAt grammar limit uri d a uses i) ∧
        ∀ j, i < j → ¬ DroppedAt uri uses j) ∧
    ∀ e, (sessionAfter grammar limit uses).cache.find? uri = some e →
      ∃ i d a, LatestAt grammar limit uri d a uses i ∧ e.IsOf limit d a := by
  have explains := explains_sessionAfter grammar limit uri uses
  rw [Cache.contains]
  cases found : (sessionAfter grammar limit uses).cache.find? uri with
  | some e =>
    rw [found] at explains
    obtain ⟨i, d, a, latestAt, isOf⟩ := explains
    refine ⟨iff_of_true rfl ⟨i, ⟨d, a, latestAt.analyzed⟩, latestAt.undropped⟩, ?_⟩
    rintro _ ⟨⟩
    exact ⟨i, d, a, latestAt, isOf⟩
  | none =>
    rw [found] at explains
    refine ⟨iff_of_false (by simp) ?_, fun e impossible => nomatch impossible⟩
    rintro ⟨i, ⟨d, a, analyzed⟩, undropped⟩
    obtain ⟨j, later, dropped⟩ := explains i d a analyzed
    exact undropped j later dropped

/-- A grammar that finds nothing in any text. -/
def blankGrammar : Grammar := fun _ => .mk { kind := "program", startByte := 0, endByte := 0 } []

/-- A document of a file without text. -/
def blankDocument (uri fileName : String) : Document :=
  { uri := uri, text := [], fileName := fileName }

/-- A history in which the text at one address is replaced, and another address is dropped. -/
def replacingHistory : List CacheUse :=
  [.document .never (blankDocument "a" "A.java"),
   .document .never (blankDocument "b" "B.java"),
   .document .never { blankDocument "a" "A.java" with text := ['x'] },
   .drop "b"]

theorem sessionAfter_replacingHistory :
    ∃ e, (sessionAfter blankGrammar 1 replacingHistory).cache.find? "a" = some e ∧
      ∃ i d a, LatestAt blankGrammar 1 "a" d a replacingHistory i ∧ e.IsOf 1 d a := by
  have held : ((sessionAfter blankGrammar 1 replacingHistory).cache.find? "a").isSome = true := by
    decide +kernel
  obtain ⟨e, found⟩ := Option.isSome_iff_exists.mp held
  exact ⟨e, found, (sessionAfter_holds_latest blankGrammar 1 replacingHistory "a").2 e found⟩

end JavaSurvey
