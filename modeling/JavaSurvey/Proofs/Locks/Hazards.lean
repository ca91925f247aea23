import JavaSurvey.Proofs.Locks.Blocks
import JavaSurvey.Proofs.Text.Lines
import Mathlib.Data.List.TakeWhile

/-!
# Hazards in lock blocks

A hazard is looked for in the body of a block, which is cut out of its text. What it is looked for
by, a word with its neighbours or a word before a parenthesis, is said here of the whole text.

1. `Hazard.occursIn_iff`: a text holds a hazard where its pattern matches;
2. `Hazard.matchesAt_append_iff`: no word goes on at the ends of a body, so the pattern matches in
   it what it matches there in the whole text;
3. `lockWarnings_exact`: the warnings are those of the matches between the braces of the blocks.
-/

namespace JavaSurvey

/-! ## Patterns -/

/-- One of some words, blanks and a parenthesis stand in a text from `first` up to `last`. -/
def CallOf (words : List Text) (t : Text) (first last : Nat) : Prop :=
  ∃ word ∈ words, ∃ blanks : Text, (∀ c ∈ blanks, Text.isBlank c = true) ∧
    word ++ (blanks ++ ['(']) <+: t.drop first ∧ last = first + (word ++ (blanks ++ ['('])).length

/-- No word character stands right before an offset. -/
def NoWordBefore (t : Text) (i : Nat) : Prop :=
  i = 0 ∨ ∃ c, t[i - 1]? = some c ∧ Text.isWord c = false

/-- The pattern of a hazard matches what stands in a text from `first` up to `last`. -/
def Hazard.MatchesAt : Hazard → Text → Nat → Nat → Prop
  | binderCall, t, first, last => CallOf binderCalls t first last
  | posting, t, first, last => NoWordBefore t first ∧ CallOf postingCalls t first last
  | nestedLock, t, first, last => WholeWordAt lockWord t first ∧ last = first + lockWord.length

theorem CallOf.bounded {words : List Text} {t : Text} {first last : Nat}
    (call : CallOf words t first last) : first ≤ last ∧ last ≤ t.length := by
  obtain ⟨word, -, blanks, -, here, rfl⟩ := call
  exact ⟨Nat.le_add_right _ _, Text.prefix_drop_bounded (by simp) here⟩

theorem lockWord_ne_nil : lockWord ≠ [] := by
  decide

theorem Hazard.MatchesAt.bounded {h : Hazard} {t : Text} {first last : Nat}
    (found : h.MatchesAt t first last) : first ≤ last ∧ last ≤ t.length := by
  cases h with
  | binderCall => exact CallOf.bounded found
  | posting => exact CallOf.bounded found.2
  | nestedLock =>
    obtain ⟨isWord, rfl⟩ := found
    exact ⟨Nat.le_add_right _ _, Text.prefix_drop_bounded lockWord_ne_nil isWord.here⟩

/-! ## The search for a hazard -/

theorem callsOneOf_iff {words : List Text} {t : Text} :
    callsOneOf words t = true ↔ ∃ word ∈ words, ∃ blanks : Text,
      (∀ c ∈ blanks, Text.isBlank c = true) ∧ word ++ (blanks ++ ['(']) <+: t := by
  unfold callsOneOf
  rw [List.any_eq_true]
  refine exists_congr fun word => and_congr_right fun _ => ?_
  rw [Bool.and_eq_true, List.isPrefixOf_iff_prefix, beq_iff_eq]
  constructor
  · rintro ⟨⟨rest, rfl⟩, opened⟩
    rw [List.drop_left] at opened
    obtain ⟨more, after⟩ := List.head?_eq_some_iff.mp opened
    have parts : rest.takeWhile Text.isBlank ++ '(' :: more = rest := by
      rw [← after, List.takeWhile_append_dropWhile]
    refine ⟨rest.takeWhile Text.isBlank, fun c => List.mem_takeWhile_imp, more, ?_⟩
    rw [List.append_assoc, List.append_assoc, List.singleton_append, parts]
  · rintro ⟨blanks, blank, more, rfl⟩
    have isOpening : ¬ Text.isBlank '(' = true := by decide
    rw [List.append_assoc, List.append_assoc]
    refine ⟨List.prefix_append _ _, ?_⟩
    rw [List.drop_left, List.dropWhile_append_of_pos blank, List.singleton_append,
      List.dropWhile_cons_of_neg isOpening, List.head?_cons]

theorem callsOneOf_iff_callOf {words : List Text} (before : Text) {after : Text} :
    callsOneOf words after = true ↔ ∃ last, CallOf words (before ++ after) before.length last := by
  unfold CallOf
  rw [callsOneOf_iff, List.drop_left]
  constructor
  · rintro ⟨word, listed, blanks, blank, here⟩
    exact ⟨_, word, listed, blanks, blank, here, rfl⟩
  · rintro ⟨last, word, listed, blanks, blank, here, -⟩
    exact ⟨word, listed, blanks, blank, here⟩

namespace Hazard

/-- A hazard starts where its pattern matches, whatever stands before. -/
theorem startsAt_iff {h : Hazard} {before after : Text} :
    h.startsAt (joinedAfter false before) after = true ↔
      ∃ last, h.MatchesAt (before ++ after) before.length last := by
  cases h with
  | binderCall => exact callsOneOf_iff_callOf before
  | posting =>
    unfold startsAt MatchesAt NoWordBefore
    rw [Bool.and_eq_true, Bool.not_eq_true', joinedAfter_eq_false_iff before after,
      callsOneOf_iff_callOf before, exists_and_left]
  | nestedLock =>
    unfold startsAt MatchesAt
    rw [wordAtStart_iff, exists_and_left, and_iff_left ⟨_, rfl⟩]

theorem startsAt_nil (h : Hazard) (joined : Bool) : h.startsAt joined [] = false := by
  cases h with
  | binderCall => rfl
  | posting => cases joined <;> rfl
  | nestedLock => cases joined <;> rfl

/-- The search goes through the places of a text. -/
theorem occursFrom_iff {h : Hazard} {joined : Bool} {t : Text} :
    h.occursFrom joined t = true ↔ ∃ before after, t = before ++ after ∧
      h.startsAt (joinedAfter joined before) after = true := by
  induction t generalizing joined with
  | nil =>
    refine iff_of_false (by simp [occursFrom]) ?_
    rintro ⟨before, after, parts, starts⟩
    obtain ⟨-, rfl⟩ := List.append_eq_nil_iff.mp parts.symm
    rw [startsAt_nil] at starts
    cases starts
  | cons c rest ih =>
    rw [occursFrom, Bool.or_eq_true, ih]
    constructor
    · rintro (here | ⟨before, after, rfl, later⟩)
      · exact ⟨[], c :: rest, rfl, here⟩
      · exact ⟨c :: before, after, rfl, by rwa [joinedAfter_cons]⟩
    · rintro ⟨before, after, parts, starts⟩
      cases before with
      | nil =>
        obtain rfl : c :: rest = after := parts
        exact .inl starts
      | cons d before =>
        obtain ⟨rfl, rfl⟩ := List.cons.inj parts
        rw [joinedAfter_cons] at starts
        exact .inr ⟨before, after, rfl, starts⟩

/-- A text holds a hazard where its pattern matches. -/
theorem occursIn_iff {h : Hazard} {t : Text} :
    h.occursIn t = true ↔ ∃ first last, h.MatchesAt t first last := by
  unfold occursIn
  rw [occursFrom_iff]
  constructor
  · rintro ⟨before, after, rfl, starts⟩
    exact ⟨before.length, startsAt_iff.mp starts⟩
  · rintro ⟨first, last, found⟩
    obtain ⟨ordered, inside⟩ := found.bounded
    have length : (t.take first).length = first := by
      rw [List.length_take, Nat.min_eq_left (Nat.le_trans ordered inside)]
    refine ⟨t.take first, t.drop first, (List.take_append_drop first t).symm, startsAt_iff.mpr ?_⟩
    rw [List.take_append_drop, length]
    exact ⟨last, found⟩

end Hazard

/-! ## Texts and their parts -/

section Part

variable {front body back : Text} {i : Nat}

theorem prefix_drop_append_iff {piece : Text} (nonempty : piece ≠ []) :
    piece <+: body.drop i ↔
      piece <+: (front ++ (body ++ back)).drop (front.length + i) ∧
        i + piece.length ≤ body.length := by
  rw [List.drop_length_add_append]
  constructor
  · intro here
    have bounded := Text.prefix_drop_bounded nonempty here
    rw [List.drop_append_of_le_length (Nat.le_of_add_right_le bounded)]
    exact ⟨here.trans (List.prefix_append _ _), bounded⟩
  · rintro ⟨here, bounded⟩
    rw [List.drop_append_of_le_length (Nat.le_of_add_right_le bounded)] at here
    refine List.prefix_of_prefix_length_le here (List.prefix_append _ _) ?_
    rw [List.length_drop]
    omega

theorem callOf_append_iff {words : List Text} {j : Nat} :
    CallOf words body i j ↔
      CallOf words (front ++ (body ++ back)) (front.length + i) (front.length + j) ∧
        j ≤ body.length := by
  constructor
  · rintro ⟨word, listed, blanks, blank, here, rfl⟩
    obtain ⟨inWhole, bounded⟩ := (prefix_drop_append_iff (by simp)).mp here
    exact ⟨⟨word, listed, blanks, blank, inWhole, (Nat.add_assoc _ _ _).symm⟩, bounded⟩
  · rintro ⟨⟨word, listed, blanks, blank, inWhole, ends⟩, bounded⟩
    rw [Nat.add_assoc] at ends
    cases Nat.add_left_cancel ends
    exact ⟨word, listed, blanks, blank, (prefix_drop_append_iff (by simp)).mpr ⟨inWhole, bounded⟩,
      rfl⟩

theorem joinedAfter_append (joined : Bool) (before after : Text) :
    joinedAfter joined (before ++ after) = joinedAfter (joinedAfter joined before) after := by
  unfold joinedAfter
  rw [List.getLast?_append]
  cases after.getLast? with
  | none => rfl
  | some c => rfl

/-- Where no word goes on from the text before a part, the part is cut between words. -/
theorem noWordBefore_append_iff (ended : joinedAfter false front = false)
    (inside : i ≤ body.length) :
    NoWordBefore body i ↔ NoWordBefore (front ++ (body ++ back)) (front.length + i) := by
  have length : (body.take i).length = i := by rw [List.length_take, Nat.min_eq_left inside]
  have inBody := joinedAfter_eq_false_iff (body.take i) (body.drop i)
  have inWhole := joinedAfter_eq_false_iff (front ++ body.take i) (body.drop i ++ back)
  have whole : front ++ body.take i ++ (body.drop i ++ back) = front ++ (body ++ back) := by
    rw [List.append_assoc, ← List.append_assoc (body.take i), List.take_append_drop]
  rw [List.take_append_drop, length] at inBody
  rw [whole, joinedAfter_append, ended, List.length_append, length] at inWhole
  exact inBody.symm.trans inWhole

theorem wholeWordAt_append_iff {word : Text} (nonempty : word ≠ [])
    (ended : joinedAfter false front = false)
    (next : ∀ c, back.head? = some c → Text.isWord c = false) :
    WholeWordAt word body i ↔
      WholeWordAt word (front ++ (body ++ back)) (front.length + i) ∧
        i + word.length ≤ body.length := by
  have after : (front ++ (body ++ back))[front.length + i + word.length]? =
      (body ++ back)[i + word.length]? := by
    rw [Nat.add_assoc, List.getElem?_append_right (Nat.le_add_right _ _), Nat.add_sub_cancel_left]
  constructor
  · rintro ⟨here, starts, ends⟩
    obtain ⟨inWhole, bounded⟩ := (prefix_drop_append_iff nonempty).mp here
    refine ⟨⟨inWhole, ?_, ?_⟩, bounded⟩
    · exact (noWordBefore_append_iff ended (Nat.le_of_add_right_le bounded)).mp starts
    · intro c isNext
      rw [after] at isNext
      rcases Nat.lt_or_eq_of_le bounded with within | atEnd
      · rw [List.getElem?_append_left within] at isNext
        exact ends c isNext
      · rw [atEnd, List.getElem?_append_right (Nat.le_refl _), Nat.sub_self] at isNext
        exact next c (List.head?_eq_getElem?.trans isNext)
  · rintro ⟨⟨inWhole, starts, ends⟩, bounded⟩
    refine ⟨(prefix_drop_append_iff nonempty).mpr ⟨inWhole, bounded⟩, ?_, ?_⟩
    · exact (noWordBefore_append_iff ended (Nat.le_of_add_right_le bounded)).mpr starts
    · intro c isNext
      apply ends c
      obtain ⟨within, -⟩ := List.getElem?_eq_some_iff.mp isNext
      rw [after, List.getElem?_append_left within, isNext]

/-- Where no word goes on at either end of a part, a pattern matches in the part what it matches
there in the whole text. -/
theorem Hazard.matchesAt_append_iff {h : Hazard} {j : Nat} (ended : joinedAfter false front = false)
    (next : ∀ c, back.head? = some c → Text.isWord c = false) :
    h.MatchesAt body i j ↔
      h.MatchesAt (front ++ (body ++ back)) (front.length + i) (front.length + j) ∧
        j ≤ body.length := by
  cases h with
  | binderCall => exact callOf_append_iff
  | posting =>
    have starts (call : CallOf postingCalls body i j) :
        NoWordBefore body i ↔ NoWordBefore (front ++ (body ++ back)) (front.length + i) :=
      noWordBefore_append_iff ended (Nat.le_trans call.bounded.1 call.bounded.2)
    constructor
    · rintro ⟨noWord, call⟩
      obtain ⟨inWhole, bounded⟩ := callOf_append_iff.mp call
      exact ⟨⟨(starts call).mp noWord, inWhole⟩, bounded⟩
    · rintro ⟨⟨noWord, inWhole⟩, bounded⟩
      have call := callOf_append_iff.mpr ⟨inWhole, bounded⟩
      exact ⟨(starts call).mpr noWord, call⟩
  | nestedLock =>
    have isWord : WholeWordAt lockWord body i ↔
        WholeWordAt lockWord (front ++ (body ++ back)) (front.length + i) ∧
          i + lockWord.length ≤ body.length :=
      wholeWordAt_append_iff lockWord_ne_nil ended next
    constructor
    · rintro ⟨here, rfl⟩
      obtain ⟨inWhole, bounded⟩ := isWord.mp here
      exact ⟨⟨inWhole, (Nat.add_assoc _ _ _).symm⟩, bounded⟩
    · rintro ⟨⟨inWhole, ends⟩, bounded⟩
      rw [Nat.add_assoc] at ends
      cases Nat.add_left_cancel ends
      exact ⟨isWord.mpr ⟨inWhole, bounded⟩, rfl⟩

end Part

/-! ## Warnings -/

namespace LockAt

variable {t : Text} {word first last : Nat} (lock : LockAt t word first last)

include lock

/-- A lock is before its body, and its body is cut out between the braces. -/
theorem whole :
    t = t.take (first + 1) ++ (Text.slice t (first + 1 : Nat) last ++ t.drop last) := by
  rw [← Text.drop_eq_slice_append t lock.braces.ordered, List.take_append_drop]

/-- No word goes on from the opening brace of a lock. -/
theorem joinedAfter_take : joinedAfter false (t.take (first + 1)) = false := by
  unfold joinedAfter
  rw [List.take_add_one, lock.braces.opens, Option.toList_some, List.getLast?_concat]
  decide

/-- No word goes on at the closing brace of a lock. -/
theorem head?_drop (c : Char) (next : (t.drop last).head? = some c) : Text.isWord c = false := by
  rw [List.head?_drop, lock.braces.closes] at next
  cases next
  decide

/-- The body of a lock holds a hazard where the pattern matches between its braces. -/
theorem occursIn_iff {h : Hazard} :
    h.occursIn (Text.slice t (first + 1 : Nat) last) = true ↔
      ∃ i j, h.MatchesAt t i j ∧ first + 1 ≤ i ∧ j ≤ last := by
  have ordered := lock.braces.ordered
  have bounded := (List.getElem?_eq_some_iff.mp lock.braces.closes).1
  have frontLength : (t.take (first + 1)).length = first + 1 := by
    rw [List.length_take]
    omega
  have bodyLength : (Text.slice t (first + 1 : Nat) last).length = last - (first + 1) := by
    rw [Text.slice_natCast, List.length_take, List.length_drop]
    omega
  have shift (i j : Nat) : h.MatchesAt (Text.slice t (first + 1 : Nat) last) i j ↔
      h.MatchesAt t (first + 1 + i) (first + 1 + j) ∧ j ≤ last - (first + 1) := by
    rw [h.matchesAt_append_iff lock.joinedAfter_take lock.head?_drop, ← lock.whole, frontLength,
      bodyLength]
  rw [Hazard.occursIn_iff]
  constructor
  · rintro ⟨i, j, found⟩
    obtain ⟨inWhole, inside⟩ := (shift i j).mp found
    exact ⟨_, _, inWhole, Nat.le_add_right _ _, by omega⟩
  · rintro ⟨i, j, found, after, before⟩
    obtain ⟨i, rfl⟩ := Nat.exists_eq_add_of_le after
    obtain ⟨j, rfl⟩ := Nat.exists_eq_add_of_le (Nat.le_trans after found.bounded.1)
    exact ⟨i, j, (shift i j).mpr ⟨found, by omega⟩⟩

theorem word_lt_body : word < first + 1 := by
  have after := lock.after
  omega

/-- Between the braces of a lock there is another one where its word is found there. -/
theorem nestedLock_iff :
    (∃ i j, Hazard.nestedLock.MatchesAt t i j ∧ first + 1 ≤ i ∧ j ≤ last) ↔
      ∃ i, i ≠ word ∧ WholeWordAt lockWord t i ∧ first + 1 ≤ i ∧ i + lockWord.length ≤ last := by
  constructor
  · rintro ⟨i, j, ⟨isWord, rfl⟩, after, before⟩
    exact ⟨i, Nat.ne_of_gt (Nat.lt_of_lt_of_le lock.word_lt_body after), isWord, after, before⟩
  · rintro ⟨i, -, isWord, after, before⟩
    exact ⟨i, _, ⟨isWord, rfl⟩, after, before⟩

end LockAt

/-- What a warning says: where it starts and stops, on which line, and what of. -/
def LockWarning.content (w : LockWarning) : Int × Int × Int × String :=
  (w.range.start, w.range.stop, w.line, w.message)

/-- The hazards for which a block is warned of, in the order in which they are looked for. -/
def LockBlock.hazards (t : Text) (b : LockBlock) : List Hazard :=
  Hazard.all.filter (·.occursIn (Text.slice t b.bodyStart b.bodyStop))

/-- A block whose word is before its end has a warning for each hazard in it. -/
theorem blockWarnings_ok (t : Text) (lines : LineIndex) {b : LockBlock}
    (ordered : b.word ≤ b.bodyStop) :
    ∃ warnings, blockWarnings t lines b = .ok warnings ∧
      warnings.map LockWarning.content = (b.hazards t).map fun h =>
        ((b.word : Int), (b.bodyStop + 1 : Int), lines.lineOf b.word, h.message) := by
  have forward : (b.word : Int) ≤ b.bodyStop + 1 := by omega
  unfold blockWarnings Span.check
  rw [dif_pos forward]
  refine ⟨_, rfl, ?_⟩
  rw [List.map_map]
  rfl

theorem warningsFor_ok (t : Text) (lines : LineIndex) {blocks : List LockBlock}
    (ordered : ∀ b ∈ blocks, b.word ≤ b.bodyStop) :
    ∃ warnings, warningsFor t lines blocks = .ok warnings ∧
      warnings.map LockWarning.content = blocks.flatMap fun b => (b.hazards t).map fun h =>
        ((b.word : Int), (b.bodyStop + 1 : Int), lines.lineOf b.word, h.message) := by
  induction blocks with
  | nil => exact ⟨[], rfl, rfl⟩
  | cons b rest ih =>
    obtain ⟨here, made, contents⟩ := blockWarnings_ok t lines (ordered b List.mem_cons_self)
    obtain ⟨later, madeLater, contentsLater⟩ :=
      ih fun b' member => ordered b' (List.mem_cons_of_mem _ member)
    refine ⟨here ++ later, ?_, ?_⟩
    · rw [warningsFor, made, madeLater]
      rfl
    · rw [List.map_append, contents, contentsLater, List.flatMap_cons]

/-- Warnings are always given: block by block, one for each hazard of the block, in the order in
which these are looked for. It goes from the word of the lock to its closing brace, with the line of
the word. The hazards of a block are those whose pattern matches in the whole text between its
braces, and another lock is one of them if its word stands there. -/
theorem lockWarnings_exact (t : Text) :
    ∃ (warnings : List LockWarning) (hazards : LockBlock → List Hazard),
      lockWarnings t = .ok warnings ∧
      warnings.map LockWarning.content = (lockBlocks t).flatMap (fun b => (hazards b).map fun h =>
        ((b.word : Int), (b.bodyStop + 1 : Int), (1 + (t.take b.word).count '\n' : Int),
          h.message)) ∧
      ∀ b ∈ lockBlocks t, (hazards b).Sublist [.binderCall, .posting, .nestedLock] ∧
        (∀ h, h ∈ hazards b ↔
          ∃ i j, h.MatchesAt t i j ∧ b.bodyStart ≤ i ∧ j ≤ b.bodyStop) ∧
        (.nestedLock ∈ hazards b ↔ ∃ i, i ≠ b.word ∧ WholeWordAt lockWord t i ∧
          b.bodyStart ≤ i ∧ i + lockWord.length ≤ b.bodyStop) := by
  have locks (b : LockBlock) (member : b ∈ lockBlocks t) := mem_lockBlocks_iff.mp member
  have ordered : ∀ b ∈ lockBlocks t, b.word ≤ b.bodyStop := by
    intro b member
    obtain ⟨word, first, last, lock, rfl⟩ := locks b member
    exact Nat.le_of_lt (Nat.lt_of_lt_of_le lock.word_lt_body lock.braces.ordered)
  obtain ⟨warnings, made, contents⟩ := warningsFor_ok t (LineIndex.ofText t) ordered
  refine ⟨warnings, LockBlock.hazards t, made, ?_, ?_⟩
  · simp only [contents, LineIndex.lineOf_ofText, Int.toNat_natCast]
  · intro b member
    obtain ⟨word, first, last, lock, rfl⟩ := locks b member
    have found (h : Hazard) : h ∈ LockBlock.hazards t ⟨word, first + 1, last⟩ ↔
        ∃ i j, h.MatchesAt t i j ∧ first + 1 ≤ i ∧ j ≤ last := by
      have listed : h ∈ Hazard.all := by cases h <;> simp [Hazard.all]
      rw [LockBlock.hazards, List.mem_filter, and_iff_right listed]
      exact lock.occursIn_iff
    exact ⟨List.filter_sublist, found, (found .nestedLock).trans lock.nestedLock_iff⟩

/-- A posting call has to start a word, and a binder call need not. -/
example : LockBlock.hazards "synchronized(a) \x7b b.untransact (); c.repost(d); \x7d".toList
    ⟨0, 17, 48⟩ = [.binderCall] := by
  decide

end JavaSurvey
