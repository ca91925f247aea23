import JavaSurvey.Proofs.Cache.History
import JavaSurvey.Proofs.Syntax.ByteMap

/-!
# Edits of one character

A fingerprint has 32 bits, so some texts share one. An edit of a single character is noticed all
the same.

1. `mix_injective` and `mix_right_injective`: a step of the fingerprint forgets neither the sum so
   far nor the character, since the factor is odd and so has an inverse;
2. `fingerprint_replace_ne`: replacing a character changes the fingerprint, whatever follows it;
3. `EditedOnce.told_apart`: inserting or deleting a character changes the size instead;
4. `request_parses_edited`: so no entry answers for a text that is one edit away from its own.
-/

namespace JavaSurvey

/-! ## Fingerprints -/

/-- The factor of a step has an inverse, so the step can be undone. -/
theorem mix_undo (h : UInt32) (c : Char) : mix h c * 899433627 = h ^^^ c.val := by
  have inverse : (16777619 : UInt32) * 899433627 = 1 := by decide
  rw [mix, UInt32.mul_assoc, inverse, UInt32.mul_one]

theorem mix_injective (c : Char) : Function.Injective fun h => mix h c := by
  intro h k same
  have undone : h ^^^ c.val = k ^^^ c.val := by
    rw [← mix_undo h c, ← mix_undo k c]
    exact congrArg (· * 899433627) same
  exact (UInt32.xor_left_inj c.val).mp undone

theorem mix_right_injective (h : UInt32) : Function.Injective (mix h) := by
  intro c d same
  have undone : h ^^^ c.val = h ^^^ d.val := by
    rw [← mix_undo h c, ← mix_undo h d, same]
  exact Char.ext ((UInt32.xor_right_inj h).mp undone)

theorem foldl_mix_injective (t : Text) : Function.Injective fun h => t.foldl mix h := by
  -- What follows a character is mixed in by steps that forget nothing either.
  induction t with
  | nil => exact fun _ _ same => same
  | cons c rest ih => exact ih.comp (mix_injective c)

theorem fingerprint_replace_ne (front back : Text) {c d : Char} (different : c ≠ d) :
    fingerprint (front ++ c :: back) ≠ fingerprint (front ++ d :: back) := by
  intro same
  simp only [fingerprint, List.foldl_append, List.foldl_cons] at same
  exact different (mix_right_injective _ (foldl_mix_injective back same))

/-! ## Edits -/

/-- A text becomes another one by a single edit: a character is replaced by a different one,
inserted or deleted, at any place. -/
inductive EditedOnce : Text → Text → Prop
  | replaced (front back : Text) {c d : Char} (different : c ≠ d) :
      EditedOnce (front ++ c :: back) (front ++ d :: back)
  | inserted (front back : Text) (c : Char) : EditedOnce (front ++ back) (front ++ c :: back)
  | deleted (front back : Text) (c : Char) : EditedOnce (front ++ c :: back) (front ++ back)

theorem Text.utf8Size_lt_insert (front back : Text) (c : Char) :
    utf8Size (front ++ back) < utf8Size (front ++ c :: back) := by
  rw [utf8Size_append, utf8Size_append, utf8Size_cons]
  have := c.utf8Size_pos
  omega

/-- The texts before and after an edit differ in their fingerprints or in their sizes. -/
theorem EditedOnce.told_apart {t u : Text} (edited : EditedOnce t u) :
    ¬ (fingerprint t = fingerprint u ∧ Text.utf8Size t = Text.utf8Size u) := by
  rintro ⟨sameFingerprint, sameSize⟩
  cases edited with
  | replaced front back different =>
    exact fingerprint_replace_ne front back different sameFingerprint
  | inserted front back c => exact Nat.ne_of_lt (Text.utf8Size_lt_insert front back c) sameSize
  | deleted front back c => exact Nat.ne_of_gt (Text.utf8Size_lt_insert front back c) sameSize

/-! ## Requests -/

/-- An entry has the fingerprint and the size of a text. -/
structure CacheEntry.MadeFrom (e : CacheEntry) (t : Text) : Prop where
  fingerprint : e.fingerprint = JavaSurvey.fingerprint t
  size : e.size = Text.utf8Size t

theorem Cache.answer?_of_edited {c : Cache} {d : Document} {e : CacheEntry} {t : Text}
    (held : c.find? d.uri = some e) (made : e.MadeFrom t) (edited : EditedOnce t d.text) :
    c.answer? d = none := by
  rw [answer?, held, Option.filter_some, made.fingerprint, made.size]
  refine if_neg fun matching => ?_
  rw [Bool.and_eq_true, beq_iff_eq, beq_iff_eq] at matching
  exact edited.told_apart matching

/-- Replacing a character changes the fingerprint of a text. Where an address has an entry made from
a text, a request for the text after a single edit, unless it is too large or told to stop, is not
answered by the entry: the text is parsed, once, and the answer is that of its own analysis. -/
theorem request_parses_edited :
    (∀ (front back : Text) (c d : Char), c ≠ d →
      fingerprint (front ++ c :: back) ≠ fingerprint (front ++ d :: back)) ∧
    ∀ (grammar : Grammar) (cancel : Cancel) (s : Session) (d : Document) (e : CacheEntry)
      (t : Text),
      s.cache.find? d.uri = some e → e.MadeFrom t → EditedOnce t d.text → d.isJava = true →
      d.size ≤ s.cache.limit → s.isStopped cancel = false →
        s.cache.answer? d = none ∧
        request grammar cancel d s = analyzeNew grammar d s.asked ∧
        (request grammar cancel d s).2.parses = s.parses + 1 ∧
        (request grammar cancel d s).1 =
          answerOf (analyze d.text d.fallback (grammar d.text)) := by
  refine ⟨fun front back c d => fingerprint_replace_ne front back, ?_⟩
  intro grammar cancel s d e t held made edited java fits running
  have unknown := Cache.answer?_of_edited held made edited
  have anew := request_eq_analyzeNew grammar java fits unknown running
  refine ⟨unknown, anew, ?_, ?_⟩
  · rw [anew, analyzeNew_parses, Session.asked]
  · rw [anew, analyzeNew_answer]

/-- A history in which a text with a character of two bytes is analysed. -/
def accentedHistory : List CacheUse :=
  [.document .never { uri := "u", text := ['a', 'é'], fileName := "A.java" }]

/-- The text of `accentedHistory` with another character of two bytes in place of that one. -/
def accentedEdit : Document := { uri := "u", text := ['a', 'è'], fileName := "A.java" }

theorem request_parses_accentedEdit :
    EditedOnce ['a', 'é'] accentedEdit.text ∧
      (request blankGrammar .never accentedEdit
        (sessionAfter blankGrammar 4 accentedHistory)).2.parses =
          (sessionAfter blankGrammar 4 accentedHistory).parses + 1 ∧
      (request blankGrammar .never accentedEdit
        (sessionAfter blankGrammar 4 accentedHistory)).1 =
          answerOf (analyze accentedEdit.text accentedEdit.fallback
            (blankGrammar accentedEdit.text)) := by
  have edited : EditedOnce ['a', 'é'] accentedEdit.text := .replaced ['a'] [] (by decide)
  have held : ((sessionAfter blankGrammar 4 accentedHistory).cache.find? accentedEdit.uri).map
      (fun e => (e.fingerprint, e.size)) =
        some (fingerprint ['a', 'é'], Text.utf8Size ['a', 'é']) := by
    decide +kernel
  obtain ⟨e, found, same⟩ := Option.map_eq_some_iff.mp held
  obtain ⟨sameFingerprint, sameSize⟩ := Prod.mk.inj same
  have fits : accentedEdit.size ≤ (sessionAfter blankGrammar 4 accentedHistory).cache.limit := by
    rw [sessionAfter_limit]
    decide
  exact ⟨edited, (request_parses_edited.2 blankGrammar .never _ accentedEdit e _ found
    ⟨sameFingerprint, sameSize⟩ edited rfl fits rfl).2.2⟩

end JavaSurvey
