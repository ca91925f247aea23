import JavaSurvey.Proofs.Text.Slices
import JavaSurvey.Text.LineIndex

/-!
# Lines of offsets

The line index of a text gives every offset the number of its line: one more than the newlines
before it. The search by halving is taken apart from what the index holds:

1. `upperBound_cutsAt`: on increasing starts the search finds where those up to an offset end;
2. `countP_startsFrom`: the starts up to an offset are as many as the newlines before it;
3. `lineOf_ofText`: the two together;
4. `exists_lineAt`: the starts of the index are those of the lines that the text is split into;
5. `Text.HasLine.lineOf` and `Text.exists_hasLine_lineOf`: from a line and a column to the offset,
   and back.
-/

namespace JavaSurvey

namespace LineIndex

/-- The starts up to `x` are the first `k`. -/
def CutsAt (starts : LineIndex) (x : Int) (k : Nat) : Prop :=
  k ≤ starts.size ∧ ∀ i s, starts[i]? = some s → (s ≤ x ↔ i < k)

/-! ## Search by halving -/

/-- In increasing starts, a later one is greater. -/
theorem lt_of_sorted {starts : LineIndex} (sorted : starts.toList.Pairwise (· < ·))
    {i j : Nat} {s u : Int} (first : starts[i]? = some s) (second : starts[j]? = some u)
    (lt : i < j) : s < u := by
  obtain ⟨hi, rfl⟩ := Array.getElem?_eq_some_iff.mp first
  obtain ⟨hj, rfl⟩ := Array.getElem?_eq_some_iff.mp second
  have := List.pairwise_iff_getElem.mp sorted i j (by simpa using hi) (by simpa using hj) lt
  simpa using this

/-- The search keeps what lies before `lo` up to `x` and what lies from `hi` on above it. -/
theorem upperBound_cutsAt {starts : LineIndex} (sorted : starts.toList.Pairwise (· < ·)) {x : Int}
    {lo hi : Nat} (ordered : lo ≤ hi) (inside : hi ≤ starts.size)
    (before : ∀ i s, starts[i]? = some s → i < lo → s ≤ x)
    (after : ∀ i s, starts[i]? = some s → hi ≤ i → x < s) :
    CutsAt starts x (upperBound starts x lo hi) := by
  fun_induction upperBound starts x lo hi with
  | case1 lo hi active mid s found less ih =>
    refine ih (by omega) (by omega) before ?_
    intro i u there late
    rcases Nat.lt_or_eq_of_le late with past | rfl
    · have := lt_of_sorted sorted found there past
      omega
    · rw [found] at there
      cases there
      exact less
  | case2 lo hi active mid s found notLess ih =>
    refine ih (by omega) inside ?_ after
    intro i u there early
    rcases Nat.lt_or_eq_of_le (Nat.le_of_lt_succ early) with past | rfl
    · have := lt_of_sorted sorted there found past
      omega
    · rw [found] at there
      cases there
      omega
  | case3 lo hi active mid missing =>
    -- The middle of a range inside the index is inside it too.
    have : starts.size ≤ mid := Array.getElem?_eq_none_iff.mp missing
    omega
  | case4 lo hi closed =>
    obtain rfl : lo = hi := by omega
    refine ⟨inside, fun i s there => ⟨fun le => ?_, before i s there⟩⟩
    by_cases early : i < lo
    · exact early
    · have := after i s there (by omega)
      omega

theorem countP_eq_of_prefix {α : Type} {p : α → Bool} {xs : List α} {k : Nat}
    (bound : k ≤ xs.length) (cut : ∀ i x, xs[i]? = some x → (p x = true ↔ i < k)) :
    xs.countP p = k := by
  induction xs generalizing k with
  | nil => exact (Nat.le_zero.mp bound).symm
  | cons y ys ih =>
    have head := cut 0 y rfl
    cases k with
    | zero =>
      have rest := ih (Nat.zero_le _) fun i x there => by
        simpa using cut (i + 1) x there
      simpa [List.countP_cons, rest] using head
    | succ k =>
      have rest := ih (Nat.le_of_succ_le_succ bound) fun i x there => by
        simpa using cut (i + 1) x there
      simp [rest, head]

/-! ## The starts of a text -/

theorem lt_of_mem_startsFrom {t : Text} {k s : Int} (member : s ∈ startsFrom k t) : k < s := by
  induction t generalizing k with
  | nil => simp [startsFrom] at member
  | cons c rest ih =>
    rw [startsFrom] at member
    split at member
    · rcases List.mem_cons.mp member with rfl | later
      · omega
      · have := ih later
        omega
    · have := ih member
      omega

theorem startsFrom_sorted (k : Int) (t : Text) : (startsFrom k t).Pairwise (· < ·) := by
  induction t generalizing k with
  | nil => simp [startsFrom]
  | cons c rest ih =>
    rw [startsFrom]
    split
    · exact List.pairwise_cons.mpr ⟨fun s later => lt_of_mem_startsFrom later, ih (k + 1)⟩
    · exact ih (k + 1)

theorem ofText_sorted (t : Text) : (ofText t).toList.Pairwise (· < ·) := by
  simp only [ofText]
  exact List.pairwise_cons.mpr ⟨fun s later => lt_of_mem_startsFrom later, startsFrom_sorted 0 t⟩

/-- Of the starts in a text that stands at `k`, those up to `x` are as many as the newlines of the
text before `x`. -/
theorem countP_startsFrom (x k : Int) (t : Text) :
    (startsFrom k t).countP (· ≤ x) = (t.take (x - k).toNat).count '\n' := by
  induction t generalizing k with
  | nil => simp [startsFrom]
  | cons c rest ih =>
    -- A newline at `k` starts a line at `k + 1`, so it counts just if `k` is before `x`.
    by_cases inside : k < x
    · obtain ⟨n, step⟩ : ∃ n : Nat, (x - k).toNat = n + 1 := ⟨(x - k - 1).toNat, by omega⟩
      have shorter : (x - (k + 1)).toNat = n := by omega
      have inner := ih (k + 1)
      rw [shorter] at inner
      have reached : k + 1 ≤ x := by omega
      rw [startsFrom, step, List.take_succ_cons, List.count_cons]
      split
      · next newline => simp [inner, newline, reached]
      · next other => simp [inner, other]
    · have empty : (x - k).toNat = 0 := by omega
      rw [empty, List.take_zero, List.count_nil, List.countP_eq_zero]
      intro s member
      have := lt_of_mem_startsFrom member
      simp only [decide_eq_true_eq]
      omega

/-! ## Lines -/

/-- The line of an offset is one more than the newlines before it. An offset before the text is on
line one. -/
theorem lineOf_ofText (t : Text) (offset : Int) :
    (ofText t).lineOf offset = 1 + (t.take offset.toNat).count '\n' := by
  have cut := upperBound_cutsAt (ofText_sorted t) (x := offset) (Nat.zero_le (ofText t).size)
    (Nat.le_refl _) (fun i s _ early => absurd early (Nat.not_lt_zero i))
    (fun i s there late => by rw [Array.getElem?_eq_none late] at there; cases there)
  have counted : (ofText t).toList.countP (· ≤ offset) =
      upperBound (ofText t) offset 0 (ofText t).size := by
    refine countP_eq_of_prefix (by simpa using cut.1) ?_
    intro i s there
    simpa using cut.2 i s (by simpa using there)
  have starts := countP_startsFrom offset 0 t
  rw [Int.sub_zero] at starts
  rw [lineOf, ← counted]
  simp only [ofText, List.countP_cons, starts]
  by_cases inside : 0 ≤ offset
  · simp only [inside, decide_true, if_true]
    omega
  · have empty : offset.toNat = 0 := by omega
    simp only [empty, inside, decide_false]
    rfl

end LineIndex

/-! ## Split lines -/

namespace Text

theorem lines_cons_newline (t : Text) : lines ('\n' :: t) = [] :: lines t := by
  unfold lines
  rw [List.splitOn, List.splitOnP_cons_eq_if_modifyHead, if_pos (by simp)]
  rfl

theorem lines_cons_other {c : Char} (other : c ≠ '\n') (t : Text) :
    lines (c :: t) = (lines t).modifyHead (c :: ·) := by
  unfold lines
  rw [List.splitOn, List.splitOnP_cons_eq_if_modifyHead, if_neg (by simpa using other)]
  rfl

theorem length_lines (t : Text) : (lines t).length = t.count '\n' + 1 := by
  induction t with
  | nil => rfl
  | cons c rest ih =>
    by_cases newline : c = '\n'
    · rw [newline, lines_cons_newline, List.length_cons, ih, List.count_cons_self]
    · rw [lines_cons_other newline, List.length_modifyHead, ih, List.count_cons_of_ne newline]

/-- A text falls into what is before a line, the line, and what is after it. `number` lines are
before it. -/
structure LineAt (t : Text) (number : Nat) (front line back : Text) : Prop where
  whole : t = front ++ (line ++ back)
  before : front.count '\n' = number
  starts : front = [] ∨ front.getLast? = some '\n'
  single : '\n' ∉ line
  ends : back = [] ∨ back.head? = some '\n'

namespace LineAt

variable {t : Text} {number : Nat} {front line back : Text}

theorem front_eq_nil (first : LineAt t 0 front line back) : front = [] := by
  rcases first.starts with empty | newline
  · exact empty
  · have isNewline := List.mem_of_getLast? newline
    exact absurd isNewline (List.count_eq_zero.mp first.before)

/-- The columns of a line have as many newlines before them as there are lines before it. -/
theorem count_take (isLine : LineAt t number front line back) {column : Nat}
    (inside : column ≤ line.length) : (t.take (front.length + column)).count '\n' = number := by
  have none : (line.take column).count '\n' = 0 :=
    List.count_eq_zero.mpr fun member => isLine.single (List.mem_of_mem_take member)
  rw [isLine.whole, List.take_length_add_append, List.take_append_of_le_length inside,
    List.count_append, isLine.before, none, Nat.add_zero]

/-- An offset with as many newlines before it as there are lines before a line is in that line. -/
theorem holds (isLine : LineAt t number front line back) {offset : Nat} (inside : offset ≤ t.length)
    (counted : (t.take offset).count '\n' = number) :
    front.length ≤ offset ∧ offset ≤ front.length + line.length := by
  constructor
  · apply Nat.le_of_not_lt
    intro before
    -- The newline at the end of `front` is not before the offset.
    rcases isLine.starts with rfl | newline
    · exact absurd before (Nat.not_lt_zero _)
    · obtain ⟨earlier, rfl⟩ := List.getLast?_eq_some_iff.mp newline
      rw [List.length_append, List.length_singleton] at before
      have fewer : (t.take offset).count '\n' ≤ earlier.count '\n' := by
        rw [isLine.whole, List.append_assoc,
          List.take_append_of_le_length (Nat.le_of_lt_succ before)]
        exact (List.take_sublist offset earlier).count_le '\n'
      have more := isLine.before
      rw [List.count_append, List.count_singleton_self] at more
      omega
  · apply Nat.le_of_not_lt
    intro after
    -- The newline after `line` is before the offset.
    rcases isLine.ends with rfl | newline
    · rw [isLine.whole, List.append_nil, List.length_append] at inside
      exact absurd after (Nat.not_lt.mpr inside)
    · obtain ⟨later, rfl⟩ := List.head?_eq_some_iff.mp newline
      have isFront : front ++ (line ++ ['\n']) <+: t.take offset := by
        refine List.prefix_of_prefix_length_le ?_ (List.take_prefix offset t) ?_
        · exact ⟨later, by simp [isLine.whole]⟩
        · simp only [List.length_append, List.length_singleton, List.length_take]
          omega
      have more := isFront.sublist.count_le '\n'
      rw [List.count_append, List.count_append, List.count_singleton_self, isLine.before] at more
      omega

/-- A piece without newlines that starts in a line stands in it. -/
theorem prefix_drop (isLine : LineAt t number front line back) {piece : Text}
    (noNewline : '\n' ∉ piece) {column : Nat} (inside : column ≤ line.length)
    (here : piece <+: t.drop (front.length + column)) : piece <+: line.drop column := by
  rw [isLine.whole, List.drop_length_add_append, List.drop_append_of_le_length inside] at here
  rcases isLine.ends with rfl | newline
  · rwa [List.append_nil] at here
  · obtain ⟨later, rfl⟩ := List.head?_eq_some_iff.mp newline
    exact prefix_of_prefix_append_cons noNewline here

/-- What is left of a line is a front of what is left of the text. -/
theorem drop_prefix_drop (isLine : LineAt t number front line back) {column : Nat}
    (inside : column ≤ line.length) : line.drop column <+: t.drop (front.length + column) := by
  rw [isLine.whole, List.drop_length_add_append, List.drop_append_of_le_length inside]
  exact List.prefix_append _ _

/-- From a column back to the last newline it is as far as to the start of the line. -/
theorem length_takeWhile_reverse (isLine : LineAt t number front line back) {column : Nat}
    (inside : column ≤ line.length) :
    ((t.take (front.length + column)).reverse.takeWhile (· != '\n')).length = column := by
  have single : ∀ c ∈ (line.take column).reverse, (c != '\n') = true := by
    intro c member
    rw [List.mem_reverse] at member
    exact bne_iff_ne.mpr fun newline => isLine.single (newline ▸ List.mem_of_mem_take member)
  have stops : front.reverse.takeWhile (· != '\n') = [] := by
    rcases isLine.starts with rfl | newline
    · rfl
    · obtain ⟨earlier, rfl⟩ := List.getLast?_eq_some_iff.mp newline
      simp
  rw [isLine.whole, List.take_length_add_append, List.take_append_of_le_length inside,
    List.reverse_append, List.takeWhile_append_of_pos single, stops, List.append_nil,
    List.length_reverse, List.length_take, Nat.min_eq_left inside]

end LineAt

end Text

namespace LineIndex

theorem length_startsFrom (k : Int) (t : Text) : (startsFrom k t).length = t.count '\n' := by
  induction t generalizing k with
  | nil => rfl
  | cons c rest ih =>
    rw [startsFrom]
    split
    · next newline => rw [newline, List.length_cons, ih, List.count_cons_self]
    · next other => rw [ih, List.count_cons_of_ne other]

/-- The index has one start for each line. -/
theorem size_ofText (t : Text) : (ofText t).size = (Text.lines t).length := by
  rw [ofText, List.size_toArray, List.length_cons, length_startsFrom, Text.length_lines]

/-- The starts in a text that stands at `k` are those of its lines. -/
theorem exists_lineAt (k : Int) (t : Text) {number : Nat}
    (inside : number < (Text.lines t).length) :
    ∃ front line back, Text.LineAt t number front line back ∧
      (Text.lines t)[number]? = some line ∧
      (k :: startsFrom k t)[number]? = some (k + front.length) := by
  induction t generalizing k number with
  | nil =>
    obtain rfl : number = 0 := Nat.lt_one_iff.mp inside
    exact ⟨[], [], [], ⟨rfl, rfl, .inl rfl, List.not_mem_nil, .inl rfl⟩, rfl, by simp⟩
  | cons c rest ih =>
    by_cases newline : c = '\n'
    · subst newline
      rw [Text.lines_cons_newline, List.length_cons] at inside
      rw [Text.lines_cons_newline, startsFrom, if_pos rfl]
      cases number with
      | zero =>
        exact ⟨[], [], '\n' :: rest, ⟨rfl, rfl, .inl rfl, List.not_mem_nil, .inr rfl⟩, rfl, by simp⟩
      | succ number =>
        obtain ⟨front, line, back, isLine, listed, start⟩ :=
          ih (k + 1) (Nat.lt_of_succ_lt_succ inside)
        refine ⟨'\n' :: front, line, back, ⟨?_, ?_, .inr ?_, isLine.single, isLine.ends⟩, listed,
          ?_⟩
        · rw [isLine.whole, List.cons_append]
        · rw [List.count_cons_self, isLine.before]
        · rcases isLine.starts with rfl | last
          · rfl
          · rw [List.getLast?_cons, last, Option.getD_some]
        · rw [List.getElem?_cons_succ, start, List.length_cons]
          congr 1
          omega
    · rw [Text.lines_cons_other newline, List.length_modifyHead] at inside
      obtain ⟨front, line, back, isLine, listed, start⟩ := ih (k + 1) inside
      rw [Text.lines_cons_other newline, startsFrom, if_neg newline]
      cases number with
      | zero =>
        -- The first line grows by a character.
        obtain rfl := isLine.front_eq_nil
        have single : '\n' ∉ c :: line :=
          List.not_mem_cons_of_ne_of_not_mem (Ne.symm newline) isLine.single
        refine ⟨[], c :: line, back, ⟨?_, rfl, .inl rfl, single, isLine.ends⟩, ?_, by simp⟩
        · rw [isLine.whole]
          rfl
        · rw [List.getElem?_modifyHead_zero, listed]
          rfl
      | succ number =>
        have started : front ≠ [] := by
          rintro rfl
          exact absurd isLine.before (by simp)
        have last := isLine.starts.resolve_left started
        refine ⟨c :: front, line, back, ⟨?_, ?_, .inr ?_, isLine.single, isLine.ends⟩, ?_, ?_⟩
        · rw [isLine.whole, List.cons_append]
        · rw [List.count_cons_of_ne newline, isLine.before]
        · rw [List.getLast?_cons, last, Option.getD_some]
        · rw [List.getElem?_modifyHead_succ, listed]
        · rw [List.getElem?_cons_succ] at start ⊢
          rw [start, List.length_cons]
          congr 1
          omega

end LineIndex

namespace Text

/-- The line of a number, counted from one, and its start in the line index. -/
structure HasLine (t : Text) (number start : Int) (line : Text) : Prop where
  counted : 1 ≤ number
  indexed : (LineIndex.ofText t)[(number - 1).toNat]? = some start
  listed : (lines t)[(number - 1).toNat]? = some line

theorem HasLine.number_le {t : Text} {number start : Int} {line : Text}
    (isLine : HasLine t number start line) : number ≤ (lines t).length := by
  obtain ⟨inside, -⟩ := List.getElem?_eq_some_iff.mp isLine.listed
  omega

/-- A line starts after the lines before it. -/
theorem HasLine.lineAt {t : Text} {number start : Int} {line : Text}
    (isLine : HasLine t number start line) :
    ∃ front back, LineAt t (number - 1).toNat front line back ∧ start = front.length := by
  obtain ⟨inside, -⟩ := List.getElem?_eq_some_iff.mp isLine.listed
  obtain ⟨front, found, back, place, listed, first⟩ := LineIndex.exists_lineAt 0 t inside
  cases isLine.listed.symm.trans listed
  have indexed := isLine.indexed
  rw [LineIndex.ofText, List.getElem?_toArray, first, Int.zero_add] at indexed
  exact ⟨front, back, place, (Option.some.inj indexed).symm⟩

theorem exists_hasLine {t : Text} {number : Int} (counted : 1 ≤ number)
    (bounded : number ≤ (lines t).length) : ∃ start line, HasLine t number start line := by
  have inside : (number - 1).toNat < (lines t).length := by omega
  obtain ⟨front, line, back, -, listed, first⟩ := LineIndex.exists_lineAt 0 t inside
  refine ⟨0 + front.length, line, counted, ?_, listed⟩
  rw [LineIndex.ofText, List.getElem?_toArray, first]

/-- The columns of a line are in it. -/
theorem HasLine.lineOf {t : Text} {number start : Int} {line : Text}
    (isLine : HasLine t number start line) {column : Int} (nonneg : 0 ≤ column)
    (inside : column ≤ line.length) : (LineIndex.ofText t).lineOf (start + column) = number := by
  obtain ⟨front, back, place, rfl⟩ := isLine.lineAt
  obtain ⟨column, rfl⟩ := Int.eq_ofNat_of_zero_le nonneg
  have counted := isLine.counted
  have before := place.count_take (Int.ofNat_le.mp inside)
  rw [LineIndex.lineOf_ofText, ← Int.natCast_add, Int.toNat_natCast, before]
  omega

/-- An offset of a text is on the line of its number, at a column that the line has. -/
theorem exists_hasLine_lineOf {t : Text} {offset : Int} (nonneg : 0 ≤ offset)
    (inside : offset ≤ t.length) :
    ∃ start line, HasLine t ((LineIndex.ofText t).lineOf offset) start line ∧
      0 ≤ offset - start ∧ offset - start ≤ line.length := by
  obtain ⟨offset, rfl⟩ := Int.eq_ofNat_of_zero_le nonneg
  have number := LineIndex.lineOf_ofText t offset
  rw [Int.toNat_natCast] at number
  have fewer : (t.take offset).count '\n' ≤ t.count '\n' :=
    (List.take_sublist offset t).count_le '\n'
  have bounded : (LineIndex.ofText t).lineOf offset ≤ (lines t).length := by
    rw [number, length_lines]
    omega
  obtain ⟨start, line, isLine⟩ := exists_hasLine (number ▸ by omega) bounded
  obtain ⟨front, back, place, rfl⟩ := isLine.lineAt
  rw [number, Int.add_comm, Int.add_sub_cancel, Int.toNat_natCast] at place
  obtain ⟨after, before⟩ := place.holds (Int.ofNat_le.mp inside) rfl
  exact ⟨front.length, line, isLine, by omega, by omega⟩

end Text

end JavaSurvey
