import JavaSurvey.Proofs.Cache.History

/-!
# Standings

How a document stands to a cache is decided by the limit of the cache and by the entry at the
address of the document. All else may change without notice.

1. `Cache.AlikeAt.standing`: caches that are alike at its address are all the same to a document;
2. `Cache.standing_store`: a document is known once its analysis is stored;
3. `request_of_ne_unknown`: a document that is not unknown is answered without a parse.
-/

namespace JavaSurvey

namespace Cache

/-- Two caches have the same limit, and the same entry at an address. -/
structure AlikeAt (uri : String) (c c' : Cache) : Prop where
  limit : c.limit = c'.limit
  entry : c.find? uri = c'.find? uri

theorem AlikeAt.of_eq {c c' : Cache} (same : c = c') (uri : String) : AlikeAt uri c c' :=
  same ▸ ⟨rfl, rfl⟩

theorem AlikeAt.trans {uri : String} {c c' c'' : Cache} (first : AlikeAt uri c c')
    (second : AlikeAt uri c' c'') : AlikeAt uri c c'' :=
  ⟨first.limit.trans second.limit, first.entry.trans second.entry⟩

/-- A document stands to a cache by its limit and by the entry at its address. -/
theorem AlikeAt.standing {d : Document} {c c' : Cache} (alike : AlikeAt d.uri c c') :
    c.standing d = c'.standing d := by
  simp only [Cache.standing, answer?, alike.limit, alike.entry]

/-- Once its analysis is stored, a document is known. -/
theorem standing_store {c : Cache} {d : Document} (new : c.standing d = .unknown)
    (a : FileAnalysis) : ∃ e, (c.store d a).standing d = .known e ∧ e.analysis = a := by
  obtain ⟨java, fits, -⟩ := standing_eq_unknown_iff.mp new
  have held : (c.store d a).answer? d =
      some ⟨JavaSurvey.fingerprint d.text, d.size, a, c.stored⟩ := by
    simp [answer?]
  have limit : (c.store d a).limit = c.limit := rfl
  refine ⟨⟨JavaSurvey.fingerprint d.text, d.size, a, c.stored⟩, ?_, rfl⟩
  rw [standing, java, held, limit, if_neg (by simp), if_neg (by omega)]

end Cache

/-- Only a document that is unknown is parsed and stored. -/
theorem request_of_ne_unknown {d : Document} {s : Session} (old : s.cache.standing d ≠ .unknown)
    (grammar : Grammar) (cancel : Cancel) :
    (request grammar cancel d s).2.cache = s.cache ∧
      (request grammar cancel d s).2.parses = s.parses := by
  rw [request]
  cases standing : s.cache.standing d with
  | otherLanguage => exact ⟨rfl, rfl⟩
  | oversized => exact ⟨rfl, rfl⟩
  | known e => exact ⟨rfl, rfl⟩
  | unknown => exact absurd standing old

end JavaSurvey
