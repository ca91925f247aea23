import JavaSurvey.Proofs.Locks.Braces

/-!
# Lock blocks

A lock is a whole word, and its block goes from the first brace behind the word to the one that
closes it.

1. `wordAtStart_iff`: the word is read where it is a whole word of the text;
2. `mem_lockBlocks_iff`: the blocks found are those of the locks;
3. `lockBlocks_exact`: they come in the order of the words, and their braces do not cross.
-/

namespace JavaSurvey

/-! ## Whole words -/

/-- A word stands at an offset of a text, with no word character right before or after it. -/
structure WholeWordAt (word t : Text) (i : Nat) : Prop where
  here : word <+: t.drop i
  starts : i = 0 ∨ ∃ c, t[i - 1]? = some c ∧ Text.isWord c = false
  ends : ∀ c, t[i + word.length]? = some c → Text.isWord c = false

/-- Whether a word character stands at the end of a text; `joined` says it of an empty one. -/
def joinedAfter (joined : Bool) (before : Text) : Bool :=
  before.getLast?.elim joined Text.isWord

theorem joinedAfter_cons (joined : Bool) (c : Char) (before : Text) :
    joinedAfter joined (c :: before) = joinedAfter (Text.isWord c) before := by
  unfold joinedAfter
  cases before with
  | nil => rfl
  | cons d before => rfl

theorem joinedAfter_eq_false_iff (before after : Text) :
    joinedAfter false before = false ↔ before.length = 0 ∨
      ∃ c, (before ++ after)[before.length - 1]? = some c ∧ Text.isWord c = false := by
  unfold joinedAfter
  rcases List.eq_nil_or_concat before with rfl | ⟨front, c, rfl⟩
  · simp
  · simp

/-- A word that starts a text is a word of the whole, whatever stands before the text. -/
theorem wordAtStart_iff {word before after : Text} :
    wordAtStart word (joinedAfter false before) after = true ↔
      WholeWordAt word (before ++ after) before.length := by
  have next : (before ++ after)[before.length + word.length]? = (after.drop word.length).head? := by
    rw [List.getElem?_append_right (Nat.le_add_right _ _), Nat.add_sub_cancel_left, List.head?_drop]
  have noneAfter : (after.drop word.length).head?.any Text.isWord = false ↔
      ∀ c, (before ++ after)[before.length + word.length]? = some c → Text.isWord c = false := by
    rw [next]
    cases (after.drop word.length).head? with
    | none => simp
    | some c => simp
  unfold wordAtStart
  rw [Bool.and_eq_true, Bool.and_eq_true, Bool.not_eq_true', Bool.not_eq_true', noneAfter,
    joinedAfter_eq_false_iff before after, List.isPrefixOf_iff_prefix]
  constructor
  · rintro ⟨⟨starts, here⟩, ends⟩
    exact ⟨by rwa [List.drop_left], starts, ends⟩
  · rintro ⟨here, starts, ends⟩
    rw [List.drop_left] at here
    exact ⟨⟨starts, here⟩, ends⟩

/-! ## Blocks -/

/-- A lock of a text: the first brace after its word is at `first`, and is closed at `last`. -/
structure LockAt (t : Text) (word first last : Nat) : Prop where
  isWord : WholeWordAt lockWord t word
  after : word + lockWord.length ≤ first
  noEarlier : ∀ i, word + lockWord.length ≤ i → i < first → t[i]? ≠ some '\x7b'
  braces : BracesMatch t first last

/-- What a block is made of: what is between the word and the first brace, and what is between that
brace and the one that closes it. -/
theorem lockBlockAt?_eq_some_iff {offset : Nat} {t : Text} {b : LockBlock} :
    lockBlockAt? offset t = some b ↔ ∃ gap inner i,
      t.drop lockWord.length = gap ++ '\x7b' :: inner ∧ '\x7b' ∉ gap ∧
      closingBraceFrom 0 inner = some i ∧
      b = ⟨offset, offset + lockWord.length + gap.length + 1,
        offset + lockWord.length + gap.length + 1 + i⟩ := by
  unfold lockBlockAt?
  generalize t.drop lockWord.length = after
  dsimp only
  by_cases brace : '\x7b' ∈ after
  · obtain ⟨gap, inner, rfl, noBrace⟩ := List.eq_append_cons_of_mem brace
    rw [Text.takeWhile_ne_append_cons noBrace, List.drop_left]
    dsimp only
    rw [Option.map_eq_some_iff]
    constructor
    · rintro ⟨i, closes, rfl⟩
      exact ⟨gap, inner, i, rfl, noBrace, closes, rfl⟩
    · rintro ⟨gap', inner', i, parts, noBrace', closes, rfl⟩
      -- The text falls into these parts in one way only.
      have sameGap := congrArg (List.takeWhile (· != '\x7b')) parts
      rw [Text.takeWhile_ne_append_cons noBrace, Text.takeWhile_ne_append_cons noBrace'] at sameGap
      subst sameGap
      cases List.append_cancel_left parts
      exact ⟨i, closes, rfl⟩
  · rw [Text.takeWhile_ne_of_not_mem brace, List.drop_length]
    refine iff_of_false (by simp) ?_
    rintro ⟨gap, inner, i, rfl, -⟩
    exact brace (by simp)

theorem prefix_of_wordAtStart {word t : Text} {joined : Bool}
    (isWord : wordAtStart word joined t = true) : word <+: t := by
  unfold wordAtStart at isWord
  rw [Bool.and_eq_true, Bool.and_eq_true, List.isPrefixOf_iff_prefix] at isWord
  exact isWord.1.2

theorem mem_lockBlocksFrom_cons {offset : Nat} {joined : Bool} {c : Char} {rest : Text}
    {b : LockBlock} :
    b ∈ lockBlocksFrom offset joined (c :: rest) ↔
      (wordAtStart lockWord joined (c :: rest) = true ∧ lockBlockAt? offset (c :: rest) = some b) ∨
        b ∈ lockBlocksFrom (offset + 1) (Text.isWord c) rest := by
  rw [lockBlocksFrom]
  cases wordAtStart lockWord joined (c :: rest) with
  | true =>
    rw [if_pos rfl, List.mem_append, Option.mem_toList]
    exact or_congr_left (and_iff_right rfl).symm
  | false =>
    rw [if_neg (by simp)]
    exact (or_iff_right fun here => nomatch here.1).symm

/-- The blocks of a text that stands at `offset` are those of the places where the word stands. -/
theorem mem_lockBlocksFrom_iff {offset : Nat} {joined : Bool} {t : Text} {b : LockBlock} :
    b ∈ lockBlocksFrom offset joined t ↔ ∃ before after, t = before ++ after ∧
      wordAtStart lockWord (joinedAfter joined before) after = true ∧
      lockBlockAt? (offset + before.length) after = some b := by
  induction t generalizing offset joined with
  | nil =>
    refine iff_of_false List.not_mem_nil ?_
    rintro ⟨before, after, parts, isWord, -⟩
    obtain ⟨-, rfl⟩ := List.append_eq_nil_iff.mp parts.symm
    have empty := List.prefix_nil.mp (prefix_of_wordAtStart isWord)
    exact absurd empty (by decide)
  | cons c rest ih =>
    rw [mem_lockBlocksFrom_cons, ih]
    constructor
    · rintro (⟨isWord, found⟩ | ⟨before, after, rfl, isWord, found⟩)
      · exact ⟨[], c :: rest, rfl, isWord, found⟩
      · refine ⟨c :: before, after, rfl, by rwa [joinedAfter_cons], ?_⟩
        rwa [List.length_cons, Nat.add_comm before.length 1, ← Nat.add_assoc]
    · rintro ⟨before, after, parts, isWord, found⟩
      cases before with
      | nil =>
        obtain rfl : c :: rest = after := parts
        exact .inl ⟨isWord, found⟩
      | cons d before =>
        obtain ⟨rfl, rfl⟩ := List.cons.inj parts
        rw [joinedAfter_cons] at isWord
        rw [List.length_cons, Nat.add_comm before.length 1, ← Nat.add_assoc] at found
        exact .inr ⟨before, after, rfl, isWord, found⟩

namespace LockAt

variable {t : Text} {word first last : Nat}

/-- What is found between the word and its brace is a lock. -/
theorem of_parts {before gap inner : Text} {i : Nat}
    (isWord : WholeWordAt lockWord (before ++ (lockWord ++ (gap ++ '\x7b' :: inner))) before.length)
    (noBrace : '\x7b' ∉ gap) (closes : closingBraceFrom 0 inner = some i) :
    LockAt (before ++ (lockWord ++ (gap ++ '\x7b' :: inner))) before.length
      (before.length + lockWord.length + gap.length)
      (before.length + lockWord.length + gap.length + 1 + i) := by
  have length : (before ++ lockWord ++ gap).length =
      before.length + lockWord.length + gap.length := by
    rw [List.length_append, List.length_append]
  refine ⟨isWord, Nat.le_add_right _ _, fun k fromWord upTo isBrace => noBrace ?_, ?_⟩
  · obtain ⟨j, rfl⟩ := Nat.exists_eq_add_of_le fromWord
    rw [← List.append_assoc, ← List.length_append,
      List.getElem?_append_right (Nat.le_add_right _ _), Nat.add_sub_cancel_left,
      List.getElem?_append_left (Nat.lt_of_add_lt_add_left upTo)] at isBrace
    exact List.mem_of_getElem? isBrace
  · have braces := (closingBraceFrom_eq_some_iff_match (before ++ lockWord ++ gap) inner).mp closes
    rw [length] at braces
    simpa only [List.append_assoc] using braces

variable (lock : LockAt t word first last)

include lock

theorem word_lt : word < t.length := by
  have long := lock.isWord.here.length_le
  rw [List.length_drop] at long
  have pos : 0 < lockWord.length := by decide
  omega

theorem drop_first : t.drop first = '\x7b' :: t.drop (first + 1) := by
  obtain ⟨bounded, isBrace⟩ := List.getElem?_eq_some_iff.mp lock.braces.opens
  rw [List.drop_eq_getElem_cons bounded, isBrace]

/-- What stands after the word of a lock. -/
theorem drop_word : (t.drop word).drop lockWord.length =
    Text.slice t (word + lockWord.length : Nat) first ++ '\x7b' :: t.drop (first + 1) := by
  rw [List.drop_drop, Text.drop_eq_slice_append t lock.after, lock.drop_first]

theorem no_brace : '\x7b' ∉ Text.slice t (word + lockWord.length : Nat) first := by
  intro member
  obtain ⟨k, found⟩ := List.mem_iff_getElem?.mp member
  rw [Text.slice_natCast, List.getElem?_take] at found
  split at found
  · next inGap =>
    rw [List.getElem?_drop] at found
    exact lock.noEarlier _ (Nat.le_add_right _ k) (by omega) found
  · cases found

theorem closes : closingBraceFrom 0 (t.drop (first + 1)) = some (last - (first + 1)) := by
  have ordered := lock.braces.ordered
  have bounded := (List.getElem?_eq_some_iff.mp lock.braces.opens).1
  rw [closingBraceFrom_eq_some_iff_match (t.take first), ← lock.drop_first, List.take_append_drop,
    List.length_take, Nat.min_eq_left (Nat.le_of_lt bounded), Nat.add_sub_cancel' ordered]
  exact lock.braces

/-- The block of a lock is found at its word. -/
theorem lockBlockAt? : lockBlockAt? word (t.drop word) = some ⟨word, first + 1, last⟩ := by
  have after := lock.after
  have bounded := (List.getElem?_eq_some_iff.mp lock.braces.opens).1
  have ordered := lock.braces.ordered
  have gap : (Text.slice t (word + lockWord.length : Nat) first).length =
      first - (word + lockWord.length) := by
    rw [Text.slice_natCast, List.length_take, List.length_drop]
    omega
  refine lockBlockAt?_eq_some_iff.mpr ⟨_, _, _, lock.drop_word, lock.no_brace, lock.closes, ?_⟩
  rw [gap, Nat.add_sub_cancel' after, Nat.add_sub_cancel' ordered]

end LockAt

/-- The blocks found in a text are those of its locks. -/
theorem mem_lockBlocks_iff {t : Text} {b : LockBlock} :
    b ∈ lockBlocks t ↔
      ∃ word first last, LockAt t word first last ∧ b = ⟨word, first + 1, last⟩ := by
  unfold lockBlocks
  rw [mem_lockBlocksFrom_iff]
  constructor
  · rintro ⟨before, after, rfl, isWord, found⟩
    obtain ⟨gap, inner, i, rest, noBrace, closes, rfl⟩ := lockBlockAt?_eq_some_iff.mp found
    obtain ⟨more, rfl⟩ := prefix_of_wordAtStart isWord
    rw [List.drop_left] at rest
    subst rest
    refine ⟨_, _, _, .of_parts (wordAtStart_iff.mp isWord) noBrace closes, ?_⟩
    rw [Nat.zero_add]
  · rintro ⟨word, first, last, lock, rfl⟩
    have length : (t.take word).length = word := by
      rw [List.length_take, Nat.min_eq_left (Nat.le_of_lt lock.word_lt)]
    refine ⟨t.take word, t.drop word, (List.take_append_drop word t).symm, ?_, ?_⟩
    · rw [wordAtStart_iff, List.take_append_drop, length]
      exact lock.isWord
    · rw [length, Nat.zero_add]
      exact lock.lockBlockAt?

theorem word_of_lockBlockAt? {offset : Nat} {t : Text} {b : LockBlock}
    (found : lockBlockAt? offset t = some b) : b.word = offset := by
  obtain ⟨gap, inner, i, -, -, -, rfl⟩ := lockBlockAt?_eq_some_iff.mp found
  rfl

/-- The blocks come in the order of their words. -/
theorem lockBlocksFrom_sorted (offset : Nat) (joined : Bool) (t : Text) :
    (lockBlocksFrom offset joined t).Pairwise fun b b' => b.word < b'.word := by
  induction t generalizing offset joined with
  | nil => exact List.Pairwise.nil
  | cons c rest ih =>
    have later (b : LockBlock) (member : b ∈ lockBlocksFrom (offset + 1) (Text.isWord c) rest) :
        offset < b.word := by
      obtain ⟨before, after, -, -, found⟩ := mem_lockBlocksFrom_iff.mp member
      rw [word_of_lockBlockAt? found, Nat.add_right_comm]
      exact Nat.lt_succ_of_le (Nat.le_add_right _ _)
    rw [lockBlocksFrom]
    split
    · refine List.pairwise_append.mpr ⟨?_, ih _ _, fun b here b' member => ?_⟩
      · cases lockBlockAt? offset (c :: rest) with
        | none => exact List.Pairwise.nil
        | some b => exact List.pairwise_singleton _ b
      · rw [word_of_lockBlockAt? (Option.mem_toList.mp here)]
        exact later b' member
    · exact ih _ _

namespace LockBlock

/-- Two blocks have the same braces. -/
def SameBraces (b b' : LockBlock) : Prop :=
  b.bodyStart = b'.bodyStart ∧ b.bodyStop = b'.bodyStop

/-- The closing brace of one of two blocks is before the opening brace of the other. -/
def Apart (b b' : LockBlock) : Prop :=
  b.bodyStop < b'.bodyStart - 1 ∨ b'.bodyStop < b.bodyStart - 1

/-- The braces of a block are between those of another. -/
def Within (b b' : LockBlock) : Prop :=
  b'.bodyStart - 1 < b.bodyStart - 1 ∧ b.bodyStop < b'.bodyStop

end LockBlock

/-- The blocks of a text come in the order of their words, and there is one for each lock: a whole
word with a brace after it of which the first is closed. The braces of two blocks are the same,
apart, or between those of the other. -/
theorem lockBlocks_exact (t : Text) :
    ((lockBlocks t).Pairwise fun b b' => b.word < b'.word) ∧
    (∀ b, b ∈ lockBlocks t ↔
      ∃ word first last, LockAt t word first last ∧ b = ⟨word, first + 1, last⟩) ∧
    ∀ b ∈ lockBlocks t, ∀ b' ∈ lockBlocks t,
      b.SameBraces b' ∨ b.Apart b' ∨ b.Within b' ∨ b'.Within b := by
  refine ⟨lockBlocksFrom_sorted 0 false t, fun b => mem_lockBlocks_iff, ?_⟩
  intro b member b' member'
  obtain ⟨word, first, last, lock, rfl⟩ := mem_lockBlocks_iff.mp member
  obtain ⟨word', first', last', lock', rfl⟩ := mem_lockBlocks_iff.mp member'
  rcases lock.braces.laminar lock'.braces with ⟨rfl, rfl⟩ | apart | within | around
  · exact .inl ⟨rfl, rfl⟩
  · exact .inr (.inl apart)
  · exact .inr (.inr (.inl within))
  · exact .inr (.inr (.inr around))

/-- Two words share a brace, and a block that is not closed has a closed one in it. -/
example : lockBlocks "synchronized \x7b synchronized(synchronized) \x7b x \x7d".toList =
    [⟨15, 43, 46⟩, ⟨28, 43, 46⟩] := by
  decide

end JavaSurvey
