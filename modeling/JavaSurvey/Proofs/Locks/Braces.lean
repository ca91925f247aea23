import JavaSurvey.Locks
import JavaSurvey.Proofs.Text.Slices

/-!
# Matching braces

The search for a closing brace counts from the brace that it starts behind. What closes a brace is
said here in the whole text, where depths are counted from the start.

1. `bracesMatch_iff`: a brace is closed where the depth is for the first time again what it was;
2. `BracesMatch.laminar`: two pairs of matching braces are the same, apart, or one in the other;
3. `closingBraceFrom_eq_some_iff_match`: the search finds the brace that closes.
-/

namespace JavaSurvey

/-! ## Depths -/

/-- How many more braces a text opens than it closes. -/
def braceDepth (t : Text) : Int :=
  t.count '\x7b' - t.count '\x7d'

theorem braceDepth_append (t u : Text) : braceDepth (t ++ u) = braceDepth t + braceDepth u := by
  unfold braceDepth
  rw [List.count_append, List.count_append]
  omega

theorem braceDepth_cons (c : Char) (t : Text) :
    braceDepth (c :: t) = braceDepth [c] + braceDepth t :=
  braceDepth_append [c] t

theorem braceDepth_opening : braceDepth ['\x7b'] = 1 := rfl

theorem braceDepth_closing : braceDepth ['\x7d'] = -1 := rfl

theorem braceDepth_other {c : Char} (noOpening : c ≠ '\x7b') (noClosing : c ≠ '\x7d') :
    braceDepth [c] = 0 := by
  unfold braceDepth
  rw [List.count_singleton, List.count_singleton, if_neg (by simpa using noOpening),
    if_neg (by simpa using noClosing)]
  rfl

/-- Only a closing brace makes the depth less. -/
theorem eq_closing_of_braceDepth_neg {c : Char} (negative : braceDepth [c] < 0) : c = '\x7d' := by
  by_cases closing : c = '\x7d'
  · exact closing
  · by_cases opening : c = '\x7b'
    · rw [opening] at negative
      exact absurd negative (by decide)
    · rw [braceDepth_other opening closing] at negative
      exact absurd negative (by decide)

/-- The depth of a slice is the difference of the depths at its ends. -/
theorem braceDepth_slice (t : Text) {i j : Nat} (ordered : i ≤ j) :
    braceDepth (Text.slice t i j) = braceDepth (t.take j) - braceDepth (t.take i) := by
  have parts : t.take j = t.take i ++ Text.slice t i j := by
    rw [Text.slice_natCast, ← List.take_add, Nat.add_sub_cancel' ordered]
  rw [parts, braceDepth_append]
  omega

theorem braceDepth_take_succ {t : Text} {i : Nat} {c : Char} (here : t[i]? = some c) :
    braceDepth (t.take (i + 1)) = braceDepth (t.take i) + braceDepth [c] := by
  rw [List.take_add_one, here, Option.toList_some, braceDepth_append]

/-! ## Matching braces -/

/-- A text in which every closing brace closes one that is open, and none is left open. -/
structure BraceBalanced (t : Text) : Prop where
  closed : braceDepth t = 0
  nonneg : ∀ front, front <+: t → 0 ≤ braceDepth front

/-- The brace at `last` closes the one at `first`: the text between them, both included, is the
shortest from `first` on that is balanced. -/
structure BracesMatch (t : Text) (first last : Nat) : Prop where
  opens : t[first]? = some '\x7b'
  closes : t[last]? = some '\x7d'
  ordered : first < last
  balanced : BraceBalanced (Text.slice t first (last + 1 : Nat))
  shortest : ∀ i : Nat, first < i → i ≤ last → ¬ BraceBalanced (Text.slice t first i)

theorem eq_slice_of_prefix {t front : Text} {first last : Nat}
    (isFront : front <+: Text.slice t first last) :
    front = Text.slice t first (first + front.length : Nat) ∧ front.length ≤ last - first := by
  rw [Text.slice_natCast] at isFront
  have length := isFront.length_le
  rw [List.length_take] at length
  have short : front.length ≤ last - first := Nat.le_trans length (Nat.min_le_left _ _)
  refine ⟨?_, short⟩
  rw [Text.slice_natCast, Nat.add_sub_cancel_left]
  have cut := List.prefix_iff_eq_take.mp isFront
  rwa [List.take_take, Nat.min_eq_left short] at cut

/-- Between matching braces the depth is greater than before them. -/
theorem BracesMatch.inside {t : Text} {first last : Nat} (matching : BracesMatch t first last)
    {i : Nat} (after : first < i) (upTo : i ≤ last) :
    braceDepth (t.take first) < braceDepth (t.take i) := by
  have isFront : Text.slice t first i <+: Text.slice t first (last + 1 : Nat) :=
    Text.slice_prefix t (Int.natCast_nonneg i) (Int.ofNat_le.mpr (Nat.le_succ_of_le upTo))
  have nonneg := matching.balanced.nonneg _ isFront
  have depth := braceDepth_slice t (Nat.le_of_lt after)
  have notZero : braceDepth (Text.slice t first i) ≠ 0 := by
    intro zero
    apply matching.shortest i after upTo
    exact ⟨zero, fun front isPart => matching.balanced.nonneg front (isPart.trans isFront)⟩
  omega

/-- A brace is closed where the depth is for the first time again what it was before it. -/
theorem bracesMatch_iff {t : Text} {first last : Nat} :
    BracesMatch t first last ↔
      t[first]? = some '\x7b' ∧ first < last ∧ last < t.length ∧
        braceDepth (t.take (last + 1)) = braceDepth (t.take first) ∧
        ∀ i, first < i → i ≤ last → braceDepth (t.take first) < braceDepth (t.take i) := by
  constructor
  · intro matching
    have forward : first ≤ last + 1 := Nat.le_succ_of_le (Nat.le_of_lt matching.ordered)
    have depth := braceDepth_slice t forward
    rw [matching.balanced.closed] at depth
    refine ⟨matching.opens, matching.ordered, ?_, by omega, fun i => matching.inside⟩
    exact (List.getElem?_eq_some_iff.mp matching.closes).1
  · rintro ⟨opens, ordered, bounded, returns, deeper⟩
    have here : t[last]? = some t[last] := List.getElem?_eq_getElem bounded
    have step := braceDepth_take_succ here
    have atLast := deeper last ordered (Nat.le_refl last)
    have closing : t[last] = '\x7d' := eq_closing_of_braceDepth_neg (by omega)
    rw [closing] at here
    refine ⟨opens, here, ordered, ⟨?_, fun front isFront => ?_⟩, fun i after upTo balanced => ?_⟩
    · rw [braceDepth_slice t (Nat.le_succ_of_le (Nat.le_of_lt ordered)), returns, Int.sub_self]
    · obtain ⟨slice, short⟩ := eq_slice_of_prefix isFront
      rw [slice, braceDepth_slice t (Nat.le_add_right _ _)]
      -- A front is empty, ends before the closing brace, or is the whole.
      rcases Nat.eq_zero_or_pos front.length with empty | pos
      · rw [empty, Nat.add_zero]
        exact Int.le_of_eq (Int.sub_self _).symm
      · rcases Nat.lt_or_ge last (first + front.length) with whole | part
        · have ends : first + front.length = last + 1 := by omega
          rw [ends, returns]
          exact Int.le_of_eq (Int.sub_self _).symm
        · have inside := deeper (first + front.length) (by omega) part
          omega
    · have closed := balanced.closed
      rw [braceDepth_slice t (Nat.le_of_lt after)] at closed
      have inside := deeper i after upTo
      omega

/-- A brace is closed by one brace only. -/
theorem BracesMatch.unique {t : Text} {first last last' : Nat} (matching : BracesMatch t first last)
    (other : BracesMatch t first last') : last = last' := by
  rcases Nat.lt_trichotomy last last' with less | same | greater
  · exact absurd matching.balanced
      (other.shortest (last + 1) (Nat.lt_succ_of_lt matching.ordered) less)
  · exact same
  · exact absurd other.balanced
      (matching.shortest (last' + 1) (Nat.lt_succ_of_lt other.ordered) greater)

/-- A brace between two matching ones is closed before them. -/
theorem BracesMatch.closed_inside {t : Text} {first last first' last' : Nat}
    (outer : BracesMatch t first last) (inner : BracesMatch t first' last') (after : first < first')
    (before : first' < last) : last' < last := by
  obtain ⟨-, -, -, returns, -⟩ := bracesMatch_iff.mp outer
  obtain ⟨-, -, -, returns', deeper'⟩ := bracesMatch_iff.mp inner
  have inside := outer.inside after (Nat.le_of_lt before)
  -- At the end of the outer pair the depth is less than it ever is in the inner one.
  rcases Nat.lt_trichotomy last' last with less | same | greater
  · exact less
  · rw [same] at returns'
    omega
  · have still := deeper' (last + 1) (Nat.lt_succ_of_lt before) greater
    omega

/-- Two pairs of matching braces are the same, apart, or one in the other. -/
theorem BracesMatch.laminar {t : Text} {first last first' last' : Nat}
    (matching : BracesMatch t first last) (other : BracesMatch t first' last') :
    (first = first' ∧ last = last') ∨ (last < first' ∨ last' < first) ∨
      (first' < first ∧ last < last') ∨ (first < first' ∧ last' < last) := by
  rcases Nat.lt_trichotomy first first' with less | same | greater
  · rcases Nat.lt_trichotomy first' last with within | meets | apart
    · exact .inr (.inr (.inr ⟨less, matching.closed_inside other less within⟩))
    · -- One brace does not both open and close.
      have opens := other.opens
      rw [meets, matching.closes] at opens
      cases opens
    · exact .inr (.inl (.inl apart))
  · subst same
    exact .inl ⟨rfl, matching.unique other⟩
  · rcases Nat.lt_trichotomy first last' with within | meets | apart
    · exact .inr (.inr (.inl ⟨greater, other.closed_inside matching greater within⟩))
    · have opens := matching.opens
      rw [meets, other.closes] at opens
      cases opens
    · exact .inr (.inl (.inr apart))

/-! ## The search for a closing brace -/

/-- From some depth on, a text comes down to zero for the first time with its character `i`. -/
structure ReturnsAt (depth : Int) (t : Text) (i : Nat) : Prop where
  bounded : i < t.length
  returns : depth + braceDepth (t.take (i + 1)) = 0
  inside : ∀ j ≤ i, 0 < depth + braceDepth (t.take j)

theorem returnsAt_zero {depth : Int} {c : Char} {t : Text} :
    ReturnsAt depth (c :: t) 0 ↔ 0 < depth ∧ depth + braceDepth [c] = 0 := by
  constructor
  · intro returns
    exact ⟨by simpa [braceDepth] using returns.inside 0 (Nat.le_refl 0), returns.returns⟩
  · rintro ⟨pos, returns⟩
    refine ⟨Nat.zero_lt_succ _, returns, fun j upTo => ?_⟩
    obtain rfl := Nat.le_zero.mp upTo
    simpa [braceDepth] using pos

theorem returnsAt_succ {depth : Int} {c : Char} {t : Text} {i : Nat} :
    ReturnsAt depth (c :: t) (i + 1) ↔ 0 < depth ∧ ReturnsAt (depth + braceDepth [c]) t i := by
  have shifted (j : Nat) : depth + braceDepth ((c :: t).take (j + 1)) =
      depth + braceDepth [c] + braceDepth (t.take j) := by
    rw [List.take_succ_cons, braceDepth_cons, Int.add_assoc]
  constructor
  · intro returns
    refine ⟨by simpa [braceDepth] using returns.inside 0 (Nat.zero_le _),
      Nat.lt_of_succ_lt_succ returns.bounded, ?_, fun j upTo => ?_⟩
    · rw [← shifted]
      exact returns.returns
    · rw [← shifted]
      exact returns.inside (j + 1) (Nat.succ_le_succ upTo)
  · rintro ⟨pos, returns⟩
    refine ⟨Nat.succ_lt_succ returns.bounded, ?_, fun j upTo => ?_⟩
    · rw [shifted]
      exact returns.returns
    · cases j with
      | zero => simpa [braceDepth] using pos
      | succ j =>
        rw [shifted]
        exact returns.inside j (Nat.le_of_succ_le_succ upTo)

/-- A search that goes on after a character returns one later than it would without it. -/
theorem map_succ_eq_some_iff {depth : Int} {c : Char} {t : Text} {found : Option Nat}
    (inside : 0 < depth) (deeper : depth + braceDepth [c] ≠ 0)
    (later : ∀ i, found = some i ↔ ReturnsAt (depth + braceDepth [c]) t i) {i : Nat} :
    found.map (· + 1) = some i ↔ ReturnsAt depth (c :: t) i := by
  cases i with
  | zero =>
    rw [returnsAt_zero, Option.map_eq_some_iff]
    exact iff_of_false (fun ⟨j, _, impossible⟩ => nomatch impossible) fun here => deeper here.2
  | succ i =>
    rw [returnsAt_succ, ← later, Option.map_eq_some_iff]
    constructor
    · rintro ⟨j, isFound, same⟩
      cases same
      exact ⟨inside, isFound⟩
    · rintro ⟨-, isFound⟩
      exact ⟨i, isFound, rfl⟩

/-- The search for a closing brace stops where the depth is zero for the first time. -/
theorem closingBraceFrom_eq_some_iff {depth : Nat} {t : Text} {i : Nat} :
    closingBraceFrom depth t = some i ↔ ReturnsAt (depth + 1) t i := by
  fun_induction closingBraceFrom depth t generalizing i with
  | case1 => exact iff_of_false (by simp) fun returns => nomatch returns.bounded
  | case2 depth rest ih =>
    refine map_succ_eq_some_iff (Int.natCast_succ_pos depth) ?_ fun j => ?_
    · rw [braceDepth_opening]
      omega
    · rw [braceDepth_opening, ih, Int.natCast_succ]
  | case3 rest noOpening =>
    cases i with
    | zero =>
      rw [returnsAt_zero]
      exact iff_of_true rfl ⟨by decide, by decide⟩
    | succ i =>
      rw [returnsAt_succ, braceDepth_closing]
      -- The depth is zero after the brace, so it does not come down to zero later.
      refine iff_of_false (by simp) fun later => ?_
      have still := later.2.inside 0 (Nat.zero_le i)
      rw [List.take_zero] at still
      exact absurd still (by decide)
  | case4 rest outer noOpening ih =>
    have inside : (0 : Int) < (outer + 1 : Nat) + 1 := Int.natCast_succ_pos (outer + 1)
    refine map_succ_eq_some_iff inside ?_ fun j => ?_
    · rw [braceDepth_closing]
      omega
    · rw [braceDepth_closing, Int.add_neg_cancel_right]
      exact ih
  | case5 depth c rest noOpening noClosing ih =>
    have other := braceDepth_other noOpening noClosing
    refine map_succ_eq_some_iff (Int.natCast_succ_pos depth) ?_ fun j => ?_
    · rw [other]
      omega
    · rw [other, Int.add_zero]
      exact ih

/-- The search after an opening brace finds the brace that closes it. -/
theorem closingBraceFrom_eq_some_iff_match (front inner : Text) {i : Nat} :
    closingBraceFrom 0 inner = some i ↔
      BracesMatch (front ++ '\x7b' :: inner) front.length (front.length + 1 + i) := by
  have taken (j : Nat) : (front ++ '\x7b' :: inner).take (front.length + 1 + j) =
      front ++ '\x7b' :: inner.take j := by
    rw [Nat.add_assoc, List.take_length_add_append, Nat.add_comm 1 j, List.take_succ_cons]
  -- The depth in the whole text is the one that the search counts, above that before the brace.
  have depth (j : Nat) : braceDepth ((front ++ '\x7b' :: inner).take (front.length + 1 + j)) =
      braceDepth front + (1 + braceDepth (inner.take j)) := by
    rw [taken, braceDepth_append, braceDepth_cons, braceDepth_opening]
  have start : ((0 : Nat) : Int) + 1 = 1 := rfl
  have size : (front ++ '\x7b' :: inner).length = front.length + 1 + inner.length := by
    rw [List.length_append, List.length_cons, Nat.add_assoc, Nat.add_comm 1]
  rw [closingBraceFrom_eq_some_iff, start, bracesMatch_iff, List.take_left, size,
    Nat.add_assoc _ i 1, depth]
  constructor
  · intro returns
    refine ⟨by simp, by omega, Nat.add_lt_add_left returns.bounded _, ?_, fun k after upTo => ?_⟩
    · rw [returns.returns, Int.add_zero]
    · obtain ⟨j, rfl⟩ := Nat.exists_eq_add_of_le (Nat.succ_le_of_lt after)
      have inside := returns.inside j (Nat.le_of_add_le_add_left upTo)
      rw [Nat.succ_eq_add_one, depth]
      omega
  · rintro ⟨-, -, bounded, returns, deeper⟩
    refine ⟨Nat.lt_of_add_lt_add_left bounded, by omega, fun j upTo => ?_⟩
    have inside := deeper (front.length + 1 + j) (by omega) (Nat.add_le_add_left upTo _)
    rw [depth] at inside
    omega

end JavaSurvey
