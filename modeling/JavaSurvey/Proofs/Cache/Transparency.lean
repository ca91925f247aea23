import JavaSurvey.Proofs.Analysis
import JavaSurvey.Proofs.Cache.History

/-!
# Answers of a cache

A cache should answer as if every document were analysed anew. An entry is found by address, and
told from others by the fingerprint and the size of its text; the name of the file, which a document
without a class is called by, is no part of that.

1. `request_evaluates_iff`: after any history an answer is what the document gives without a cache,
   exactly unless the document is taken for another one. Then it is what the text gives under the
   name of that one;
2. `request_keeps_older_name`: a document may be taken for another one.
-/

namespace JavaSurvey

/-- What a text gives under a name without a cache: an empty analysis if it is too large. -/
def evaluate (grammar : Grammar) (limit : Int) (text : Text) (name : String) :
    Except Failure FileAnalysis :=
  if limit < Text.utf8Size text then .ok (FileAnalysis.empty name)
  else analyze text name (grammar text)

/-- A class is declared in a text. -/
def DeclaresClass (grammar : Grammar) (text : Text) : Prop :=
  ∃ root, parse text (grammar text) = .ok root ∧ classNames root ≠ []

/-- The fingerprint and the size tell the text of a document from the texts of all Java documents
that a history asks for at its address. -/
def ToldApart (uses : List CacheUse) (d : Document) : Prop :=
  ∀ d' ∈ uses.filterMap CacheUse.document?, d'.isJava = true → d'.uri = d.uri →
    fingerprint d'.text = fingerprint d.text → d'.size = d.size → d'.text = d.text

theorem evaluate_of_fits {grammar : Grammar} {limit : Int} {text : Text}
    (fits : Text.utf8Size text ≤ limit) (name : String) :
    evaluate grammar limit text name = analyze text name (grammar text) := by
  rw [evaluate, if_neg (by omega)]

theorem AnalyzedAt.mem_documents {grammar : Grammar} {limit : Int} {uri : String} {d : Document}
    {a : FileAnalysis} {uses : List CacheUse} {i : Nat}
    (analyzed : AnalyzedAt grammar limit uri d a uses i) :
    d ∈ uses.filterMap CacheUse.document? := by
  obtain ⟨use, found, analyzes, -⟩ := analyzed
  exact List.mem_filterMap.mpr ⟨use, List.mem_of_getElem? found, analyzes.asks⟩

/-- An entry that answers for a document was made from the same text. -/
theorem latest_of_answer? {grammar : Grammar} {limit : Int} {uses : List CacheUse} {d : Document}
    {e : CacheEntry} (toldApart : ToldApart uses d)
    (found : (sessionAfter grammar limit uses).cache.answer? d = some e) :
    ∃ i d', LatestAt grammar limit d.uri d' e.analysis uses i ∧ d'.text = d.text := by
  obtain ⟨held, matching⟩ := Option.filter_eq_some_iff.mp found
  rw [Bool.and_eq_true, beq_iff_eq, beq_iff_eq] at matching
  have explains := explains_sessionAfter grammar limit d.uri uses
  rw [held] at explains
  obtain ⟨i, d', a, latestAt, isOf⟩ := explains
  obtain ⟨use, -, -, here⟩ := latestAt.analyzed
  refine ⟨i, d', isOf.analysis ▸ latestAt, ?_⟩
  exact toldApart d' latestAt.analyzed.mem_documents isOf.java here
    (isOf.fingerprint.symm.trans matching.1) (isOf.size.symm.trans matching.2)

/-- The latest analysis at an address answers for every document there with its text. -/
theorem answer?_of_latest {grammar : Grammar} {limit : Int} {uses : List CacheUse}
    {d d' : Document} {a : FileAnalysis} {i : Nat}
    (latestAt : LatestAt grammar limit d.uri d' a uses i) (sameText : d'.text = d.text) :
    ∃ e, (sessionAfter grammar limit uses).cache.answer? d = some e := by
  obtain ⟨e, held, isOf⟩ := latestAt.find?
  have sameSize : d'.size = d.size := by rw [Document.size, sameText, Document.size]
  refine ⟨e, Option.filter_eq_some_iff.mpr ⟨held, ?_⟩⟩
  rw [Bool.and_eq_true, beq_iff_eq, beq_iff_eq, isOf.fingerprint, isOf.size, sameText]
  exact ⟨rfl, sameSize⟩

/-- A document is taken for another one: that was analysed at its address with its text, but under
another name, and the text declares no class that both would be called by. -/
structure TakenFor (grammar : Grammar) (limit : Int) (uses : List CacheUse) (d d' : Document) :
    Prop where
  fits : d.size ≤ limit
  latest : ∃ i a, LatestAt grammar limit d.uri d' a uses i
  sameText : d'.text = d.text
  otherName : d'.fallback ≠ d.fallback
  classless : ¬ DeclaresClass grammar d.text

namespace TakenFor

variable {grammar : Grammar} {limit : Int} {uses : List CacheUse} {d d' : Document}

/-- A document that is taken for another one is answered by its entry. -/
theorem known (taken : TakenFor grammar limit uses d d') :
    ∃ e, (sessionAfter grammar limit uses).cache.answer? d = some e := by
  obtain ⟨i, a, latestAt⟩ := taken.latest
  exact answer?_of_latest latestAt taken.sameText

/-- A document is taken for none but the latest one at its address. -/
theorem eq_latest {latest : Document} {a : FileAnalysis} {i : Nat}
    (taken : TakenFor grammar limit uses d d')
    (latestAt : LatestAt grammar limit d.uri latest a uses i) : d' = latest := by
  obtain ⟨j, a', otherLatest⟩ := taken.latest
  exact (otherLatest.unique latestAt).1

end TakenFor

/-- What the latest document gives is also what a document with its text gives, exactly unless that
one is taken for it. -/
theorem evaluate_eq_iff_not_taken {grammar : Grammar} {limit : Int} {uses : List CacheUse}
    {d d' : Document} {a : FileAnalysis} {i : Nat} (fits : d.size ≤ limit)
    (latestAt : LatestAt grammar limit d.uri d' a uses i) (sameText : d'.text = d.text)
    (succeeds : analyze d.text d'.fallback (grammar d.text) = .ok a) :
    evaluate grammar limit d.text d.fallback = .ok a ↔
      ∀ other, ¬ TakenFor grammar limit uses d other := by
  rw [evaluate_of_fits fits, analyze_fallback_iff succeeds]
  constructor
  · rintro (sameName | declared) other taken
    · exact taken.otherName (taken.eq_latest latestAt ▸ sameName)
    · exact taken.classless declared
  · intro untaken
    by_cases sameName : d'.fallback = d.fallback
    · exact .inl sameName
    · refine .inr (Classical.byContradiction fun classless => ?_)
      exact untaken d' ⟨fits, ⟨i, a, latestAt⟩, sameText, sameName, classless⟩

/-- An answer is what the document gives without a cache, exactly unless the document is taken for
another one. Then it is what the text gives under the name of that one. -/
theorem request_evaluates_iff {grammar : Grammar} {limit : Int} {uses : List CacheUse}
    {cancel : Cancel} {d : Document} {a : FileAnalysis} (toldApart : ToldApart uses d)
    (answered : (request grammar cancel d (sessionAfter grammar limit uses)).1 = .ok (some a)) :
    (evaluate grammar limit d.text d.fallback = .ok a ↔
      ∀ d', ¬ TakenFor grammar limit uses d d') ∧
    ∀ d', TakenFor grammar limit uses d d' →
      evaluate grammar limit d.text d'.fallback = .ok a := by
  have outcome := (request_requested grammar cancel d _).of_answered answered
  rw [sessionAfter_limit] at outcome
  -- Only an entry can be that of another document; both other answers are the document's own.
  have own (evaluated : evaluate grammar limit d.text d.fallback = .ok a)
      (untaken : ∀ d', ¬ TakenFor grammar limit uses d d') :
      (evaluate grammar limit d.text d.fallback = .ok a ↔
        ∀ d', ¬ TakenFor grammar limit uses d d') ∧
      ∀ d', TakenFor grammar limit uses d d' →
        evaluate grammar limit d.text d'.fallback = .ok a :=
    ⟨iff_of_true evaluated untaken, fun d' taken => absurd taken (untaken d')⟩
  rcases outcome with ⟨large, rfl⟩ | ⟨fits, e, found, rfl⟩ | ⟨fits, unknown, succeeds⟩
  · exact own (if_pos large) fun d' taken => Int.not_lt.mpr taken.fits large
  · obtain ⟨i, d', latestAt, sameText⟩ := latest_of_answer? toldApart found
    obtain ⟨use, -, analyzes, -⟩ := latestAt.analyzed
    have succeeds := analyzes.succeeds
    rw [sameText] at succeeds
    refine ⟨evaluate_eq_iff_not_taken fits latestAt sameText succeeds, fun other taken => ?_⟩
    rw [evaluate_of_fits fits, taken.eq_latest latestAt, succeeds]
  · refine own (by rw [evaluate_of_fits fits, succeeds]) fun d' taken => ?_
    obtain ⟨e, found⟩ := taken.known
    rw [unknown] at found
    cases found

/-- A history in which a file without text was asked for. -/
def olderFile : List CacheUse := [.document .never (blankDocument "u" "A.java")]

/-- Another file without text at the same address. -/
def newerFile : Document := blankDocument "u" "B.java"

theorem toldApart_newerFile : ToldApart olderFile newerFile := by
  intro d' asked _ _ _ _
  obtain ⟨use, member, asks⟩ := List.mem_filterMap.mp asked
  cases List.mem_singleton.mp member
  cases asks
  rfl

theorem request_newerFile :
    (request blankGrammar .never newerFile (sessionAfter blankGrammar 0 olderFile)).1 =
      .ok (some (FileAnalysis.empty "A")) := by
  decide +kernel

theorem request_evaluates_newerFile :
    ToldApart olderFile newerFile ∧
      (request blankGrammar .never newerFile (sessionAfter blankGrammar 0 olderFile)).1 =
        .ok (some (FileAnalysis.empty "A")) ∧
      (evaluate blankGrammar 0 newerFile.text newerFile.fallback = .ok (FileAnalysis.empty "A") ↔
        ∀ d', ¬ TakenFor blankGrammar 0 olderFile newerFile d') ∧
      ∀ d', TakenFor blankGrammar 0 olderFile newerFile d' →
        evaluate blankGrammar 0 newerFile.text d'.fallback = .ok (FileAnalysis.empty "A") :=
  ⟨toldApart_newerFile, request_newerFile,
    request_evaluates_iff toldApart_newerFile request_newerFile⟩

/-- Without a class, the newer of two files at one address is called by the name of the older. -/
theorem request_keeps_older_name :
    ToldApart olderFile newerFile ∧
      ∃ a, (request blankGrammar .never newerFile (sessionAfter blankGrammar 0 olderFile)).1 =
          .ok (some a) ∧
        evaluate blankGrammar 0 newerFile.text newerFile.fallback ≠ .ok a := by
  refine ⟨toldApart_newerFile, FileAnalysis.empty "A", request_newerFile, ?_⟩
  have evaluated : evaluate blankGrammar 0 newerFile.text newerFile.fallback =
      .ok (FileAnalysis.empty "B") := by
    decide +kernel
  rw [evaluated]
  decide

end JavaSurvey
