import JavaSurvey.Proofs.Cache.Files
import JavaSurvey.Proofs.Cache.Standing

/-!
# Economy of requests

A request parses once if it has to, and not at all otherwise. It changes the cache only when a parse
succeeds, and then only at its own address. So an answer stays in the cache as long as nothing else
is stored at the address, and nothing is dropped there.

1. `request_of_mustParse` and `request_of_not_mustParse`: what a request does if it has to parse,
   and if not;
2. `Cache.Answers.request`: a cache that answers for a document does so without a parse, whatever
   the session is told;
3. `request_answers`: after an answer the cache answers for the document;
4. `CacheUse.Spares.alike` and `SparedBy.alike`: one use that spares an address, and so by induction
   a row of them, leaves its entry in place;
5. `request_atomic`: all of this for one request and what comes after it.
-/

namespace JavaSurvey

/-! ## When a request parses -/

/-- A request has to parse: the document is in Java and not too large, the entry at its address is
not that of its text, and the session is not told to stop. -/
structure MustParse (cancel : Cancel) (d : Document) (s : Session) : Prop where
  java : d.isJava = true
  fits : d.size ≤ s.cache.limit
  unmatched : ∀ e, s.cache.find? d.uri = some e →
    ¬ (e.fingerprint = fingerprint d.text ∧ e.size = d.size)
  running : s.isStopped cancel = false

theorem Cache.answer?_eq_none_iff {c : Cache} {d : Document} :
    c.answer? d = none ↔ ∀ e, c.find? d.uri = some e →
      ¬ (e.fingerprint = JavaSurvey.fingerprint d.text ∧ e.size = d.size) := by
  unfold Cache.answer?
  rw [Option.filter_eq_none_iff]
  simp only [Bool.and_eq_true, beq_iff_eq]

section OneRequest

variable {cancel : Cancel} {d : Document} {s : Session}

theorem mustParse_iff : MustParse cancel d s ↔
    s.cache.standing d = .unknown ∧ s.isStopped cancel = false := by
  rw [Cache.standing_eq_unknown_iff, Cache.answer?_eq_none_iff]
  constructor
  · rintro ⟨java, fits, unmatched, running⟩
    exact ⟨⟨java, fits, unmatched⟩, running⟩
  · rintro ⟨⟨java, fits, unmatched⟩, running⟩
    exact ⟨java, fits, unmatched, running⟩

/-- A request that has to parse does so once, and gives a new analysis. -/
theorem request_of_mustParse (must : MustParse cancel d s) (grammar : Grammar) :
    request grammar cancel d s = analyzeNew grammar d s.asked := by
  obtain ⟨new, running⟩ := mustParse_iff.mp must
  obtain ⟨java, fits, unknown⟩ := Cache.standing_eq_unknown_iff.mp new
  exact request_eq_analyzeNew grammar java fits unknown running

/-- A request that does not have to parse does not, and leaves the cache alone. -/
theorem request_of_not_mustParse (spared : ¬ MustParse cancel d s) (grammar : Grammar) :
    (request grammar cancel d s).2.cache = s.cache ∧
      (request grammar cancel d s).2.parses = s.parses := by
  by_cases new : s.cache.standing d = .unknown
  · have stopped : s.isStopped cancel = true := by
      rw [← Bool.not_eq_false]
      intro running
      exact spared (mustParse_iff.mpr ⟨new, running⟩)
    rw [request, new]
    dsimp only
    rw [if_pos stopped]
    exact ⟨rfl, rfl⟩
  · exact request_of_ne_unknown new grammar cancel

theorem request_parses_eq_iff (grammar : Grammar) (cancel : Cancel) (d : Document) (s : Session) :
    ((request grammar cancel d s).2.parses = s.parses + 1 ↔ MustParse cancel d s) ∧
    ((request grammar cancel d s).2.parses = s.parses ↔ ¬ MustParse cancel d s) := by
  by_cases must : MustParse cancel d s
  · have once : (request grammar cancel d s).2.parses = s.parses + 1 := by
      rw [request_of_mustParse must, analyzeNew_parses]
      rfl
    rw [once]
    exact ⟨iff_of_true rfl must, iff_of_false (Nat.succ_ne_self _) (not_not_intro must)⟩
  · rw [(request_of_not_mustParse must grammar).2]
    exact ⟨iff_of_false (Nat.succ_ne_self _).symm must, iff_of_true rfl must⟩

end OneRequest

/-! ## What a request changes -/

namespace Cache

/-- A cache after the analysis of a document is stored: only the entry at its address is new. -/
structure StoredAt (c c' : Cache) (d : Document) (a : FileAnalysis) : Prop where
  limit : c'.limit = c.limit
  entry : ∃ e, c'.find? d.uri = some e ∧ e.IsOf c.limit d a
  others : ∀ uri, uri ≠ d.uri → c'.find? uri = c.find? uri

theorem storedAt_store (c : Cache) {d : Document} (java : d.isJava = true) (fits : d.size ≤ c.limit)
    (a : FileAnalysis) : c.StoredAt (c.store d a) d a where
  limit := rfl
  entry := ⟨_, by rw [find?_store, if_pos rfl], rfl, rfl, rfl, java, fits⟩
  others uri other := by rw [find?_store, if_neg other]

/-- A cache has the answer for a document: it is too large to be parsed, or it has an entry. -/
inductive Answers (c : Cache) (d : Document) : FileAnalysis → Prop
  | oversized (large : c.standing d = .oversized) : Answers c d (FileAnalysis.empty d.fallback)
  | known {e : CacheEntry} (found : c.standing d = .known e) : Answers c d e.analysis

theorem Answers.of_alike {c c' : Cache} {d : Document} {a : FileAnalysis} (answers : c.Answers d a)
    (alike : AlikeAt d.uri c c') : c'.Answers d a := by
  cases answers with
  | oversized large => exact .oversized (alike.standing.symm.trans large)
  | known found => exact .known (alike.standing.symm.trans found)

/-- What the cache has is given without a parse, and without asking whether to stop. -/
theorem Answers.request {s : Session} {d : Document} {a : FileAnalysis}
    (answers : s.cache.Answers d a) (grammar : Grammar) (cancel : Cancel) :
    (request grammar cancel d s).1 = .ok (some a) ∧
      (request grammar cancel d s).2.cache = s.cache ∧
      (request grammar cancel d s).2.parses = s.parses := by
  unfold JavaSurvey.request
  cases answers with
  | oversized large =>
    rw [large]
    exact ⟨rfl, rfl, rfl⟩
  | known found =>
    rw [found]
    exact ⟨rfl, rfl, rfl⟩

end Cache

/-- After an answer the cache has it. -/
theorem request_answers {grammar : Grammar} {cancel : Cancel} {d : Document} {s : Session}
    {a : FileAnalysis} (answered : (request grammar cancel d s).1 = .ok (some a)) :
    (request grammar cancel d s).2.cache.Answers d a := by
  by_cases must : MustParse cancel d s
  · obtain ⟨new, -⟩ := mustParse_iff.mp must
    rw [request_of_mustParse must] at answered ⊢
    have succeeds := (analyzeNew_eq_some_iff grammar d s.asked a).mp answered
    obtain ⟨e, known, rfl⟩ := Cache.standing_store new a
    rw [analyzeNew_cache, succeeds]
    exact .known known
  · rw [(request_of_not_mustParse must grammar).1]
    unfold request at answered
    cases standing : s.cache.standing d with
    | otherLanguage => rw [standing] at answered; cases answered
    | oversized =>
      rw [standing] at answered
      have given : FileAnalysis.empty d.fallback = a := Option.some.inj (Except.ok.inj answered)
      exact given ▸ .oversized standing
    | known e =>
      rw [standing] at answered
      have given : e.analysis = a := Option.some.inj (Except.ok.inj answered)
      exact given ▸ .known standing
    | unknown =>
      -- Told to stop, the session gives nothing.
      rw [standing] at answered
      dsimp only at answered
      split at answered
      · cases answered
      · next running => exact absurd (mustParse_iff.mpr ⟨standing, by simpa using running⟩) must

/-! ## What comes after a request -/

/-- A use leaves the entry of an address in place. -/
inductive CacheUse.Spares (grammar : Grammar) (uri : String) (s : Session) (use : CacheUse) : Prop
  /-- It asks for a document of another address. -/
  | elsewhere {d : Document} (asks : use.document? = some d) (other : d.uri ≠ uri)
  /-- It asks for a document whose analysis fails. -/
  | failing {d : Document} (asks : use.document? = some d)
      (fails : ∀ a, analyze d.text d.fallback (grammar d.text) ≠ .ok a)
  /-- It parses nothing: it is told to stop, or the document is too large, known, or not in Java. -/
  | unparsed (undropped : ¬ use.Drops uri) (same : (use.apply grammar s).parses = s.parses)

/-- One after the other, some uses leave the entry of an address in place. -/
def SparedBy (grammar : Grammar) (uri : String) : List CacheUse → Session → Prop
  | [], _ => True
  | use :: rest, s => use.Spares grammar uri s ∧ SparedBy grammar uri rest (use.apply grammar s)

/-- A request that does not have to parse spares every address. -/
theorem CacheUse.Spares.of_not_mustParse {cancel : Cancel} {d : Document} {s : Session}
    (spared : ¬ MustParse cancel d s) (grammar : Grammar) (uri : String) :
    Spares grammar uri s (.document cancel d) :=
  .unparsed id (request_of_not_mustParse spared grammar).2

theorem CacheUse.Spares.alike {grammar : Grammar} {uri : String} {s : Session} {use : CacheUse}
    (spares : use.Spares grammar uri s) :
    Cache.AlikeAt uri s.cache (use.apply grammar s).cache := by
  refine ⟨(apply_limit grammar s use).symm, ?_⟩
  cases apply_effect grammar s use uri with
  | dropped drops gone =>
    cases spares with
    | elsewhere asks => exact absurd drops (not_drops_of_asks asks uri)
    | failing asks => exact absurd drops (not_drops_of_asks asks uri)
    | unparsed undropped => exact absurd drops undropped
  | @stored d a serial analyzes here java fits fresh =>
    cases spares with
    | elsewhere asks other =>
      cases asks.symm.trans analyzes.asks
      exact absurd here other
    | failing asks fails =>
      cases asks.symm.trans analyzes.asks
      exact absurd analyzes.succeeds (fails a)
    | unparsed _ same =>
      have parses := analyzes.parses
      rw [same] at parses
      exact absurd parses.symm (Nat.succ_ne_self _)
  | kept _ _ same => exact same.symm

theorem SparedBy.alike {grammar : Grammar} {uri : String} {uses : List CacheUse} {s : Session}
    (spared : SparedBy grammar uri uses s) :
    Cache.AlikeAt uri s.cache (uses.foldl (CacheUse.apply grammar) s).cache := by
  induction uses generalizing s with
  | nil => exact .of_eq rfl uri
  | cons use rest ih =>
    obtain ⟨spares, later⟩ := spared
    exact spares.alike.trans (ih later)

/-- A request parses exactly if it has to, and then once. The cache stays as it is unless the parse
succeeds; then the analysis is given, and stored at the address of the document and nowhere else.
Once a document is answered, it is answered the same without a parse, whatever the session is told,
after any uses that leave its entry in place. -/
theorem request_atomic (grammar : Grammar) (cancel : Cancel) (d : Document) (s : Session) :
    ((request grammar cancel d s).2.parses = s.parses + 1 ↔ MustParse cancel d s) ∧
    ((request grammar cancel d s).2.parses = s.parses ↔ ¬ MustParse cancel d s) ∧
    (∀ a, MustParse cancel d s → analyze d.text d.fallback (grammar d.text) = .ok a →
      (request grammar cancel d s).1 = .ok (some a) ∧
      s.cache.StoredAt (request grammar cancel d s).2.cache d a) ∧
    (¬ (MustParse cancel d s ∧ ∃ a, analyze d.text d.fallback (grammar d.text) = .ok a) →
      (request grammar cancel d s).2.cache = s.cache) ∧
    ∀ a, (request grammar cancel d s).1 = .ok (some a) →
      ∀ uses, SparedBy grammar d.uri uses (request grammar cancel d s).2 → ∀ cancel',
        let later := uses.foldl (CacheUse.apply grammar) (request grammar cancel d s).2
        later.cache.find? d.uri = (request grammar cancel d s).2.cache.find? d.uri ∧
          (request grammar cancel' d later).1 = .ok (some a) ∧
          (request grammar cancel' d later).2.cache = later.cache ∧
          (request grammar cancel' d later).2.parses = later.parses := by
  obtain ⟨once, never⟩ := request_parses_eq_iff grammar cancel d s
  refine ⟨once, never, fun a must succeeds => ?_, fun unstored => ?_,
    fun a answered uses spared cancel' => ?_⟩
  · rw [request_of_mustParse must, analyzeNew_cache, succeeds]
    exact ⟨(analyzeNew_eq_some_iff grammar d s.asked a).mpr succeeds,
      s.cache.storedAt_store must.java must.fits a⟩
  · by_cases must : MustParse cancel d s
    · rw [request_of_mustParse must, analyzeNew_cache]
      cases result : analyze d.text d.fallback (grammar d.text) with
      | error e => rfl
      | ok a => exact absurd ⟨must, a, result⟩ unstored
    · exact (request_of_not_mustParse must grammar).1
  · have alike := spared.alike
    exact ⟨alike.entry.symm, ((request_answers answered).of_alike alike).request grammar cancel'⟩

/-- A grammar that rejects one text. -/
def markedGrammar : Grammar := fun t =>
  .mk { kind := "program", startByte := 0, endByte := 0, hasError := t == ['x'] } []

theorem markedGrammar_rejects : markedGrammar.Rejects ['x'] := by
  refine ⟨_, parse_fault rfl fun c member => ?_⟩
  obtain rfl : c = markedGrammar ['x'] := List.mem_singleton.mp member
  exact ⟨Int.le_refl 0, Int.le_refl 0, Int.natCast_nonneg _⟩

/-- A session with an empty cache for texts of at most two characters. -/
def freshSession : Session := { cache := { limit := 2 } }

/-- The session after a file without text was asked for. -/
def sessionOfBlank : Session :=
  (request markedGrammar .never (blankDocument "a" "A.java") freshSession).2

/-- Uses after that: the file is broken by an edit, another one is asked for, the file is edited
again but the session is told to stop, and then it is too large. -/
def editsOfBlank : List CacheUse :=
  [.document .never { blankDocument "a" "A.java" with text := ['x'] },
   .document .never (blankDocument "b" "B.java"),
   .document (.atPoll 0) { blankDocument "a" "A.java" with text := ['y'] },
   .document .never { blankDocument "a" "A.java" with text := ['y', 'y', 'y'] }]

theorem editsOfBlank_spare : SparedBy markedGrammar "a" editsOfBlank sessionOfBlank := by
  refine ⟨.failing rfl fun a succeeds => ?_, .elsewhere rfl (by decide),
    .of_not_mustParse (fun must => ?_) _ _, .of_not_mustParse (fun must => ?_) _ _, trivial⟩
  · obtain ⟨offset, refused⟩ := markedGrammar_rejects
    cases (analyze_eq_syntaxError_iff.mpr refused).symm.trans succeeds
  · have running := must.running
    simp [Session.isStopped, Cancel.atPoll] at running
  · exact absurd must.fits (by decide +kernel)

/-- When the edits are taken back, the file is answered from the cache, even if the session is told
to stop. -/
theorem request_atomic_editsOfBlank :
    MustParse .never (blankDocument "a" "A.java") freshSession ∧
      SparedBy markedGrammar "a" editsOfBlank sessionOfBlank ∧
      (request markedGrammar (.atPoll 0) (blankDocument "a" "A.java")
        (editsOfBlank.foldl (CacheUse.apply markedGrammar) sessionOfBlank)).1 =
          .ok (some (FileAnalysis.empty "A")) := by
  have answered : (request markedGrammar .never (blankDocument "a" "A.java") freshSession).1 =
      .ok (some (FileAnalysis.empty "A")) := by
    decide +kernel
  obtain ⟨once, -, -, -, stays⟩ :=
    request_atomic markedGrammar .never (blankDocument "a" "A.java") freshSession
  refine ⟨once.mp (by decide +kernel), editsOfBlank_spare, ?_⟩
  exact (stays _ answered editsOfBlank editsOfBlank_spare (.atPoll 0)).2.1

end JavaSurvey
