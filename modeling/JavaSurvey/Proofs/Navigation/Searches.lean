import JavaSurvey.Navigation
import JavaSurvey.Proofs.Text.Lines
import JavaSurvey.Proofs.Text.Occurrences

/-!
# Searches in texts

A definition is looked for either in the lines of a text, one after the other, or in the text as a
whole.

1. `findInLines_eq_some_iff`: a search in lines finds the first line that has the name, and the
   first place in it;
2. `Text.FirstAt.foundAt`: where a pattern without newlines stands first in a text, it stands first
   in its line, and no line before has it;
3. `findText_eq_findInServiceContexts`: so the two searches agree on such a pattern.
-/

namespace JavaSurvey

/-! ## Search in lines -/

/-- Of the lines that satisfy `p`, the one with number `i` is the first that has a name, and in this
line the name stands first at `column`. -/
structure FoundAt (p : Text → Bool) (name : Text) (ls : List Text) (i column : Nat) : Prop where
  here : ∃ line, ls[i]? = some line ∧ p line = true ∧ Text.FirstAt name line column
  earlier : ∀ j < i, ∀ line, ls[j]? = some line → p line = true → ¬ name <:+: line

section Lines

variable {p : Text → Bool} {name line : Text} {ls : List Text} {i column : Nat}

theorem foundAt_cons_zero_iff :
    FoundAt p name (line :: ls) 0 column ↔ p line = true ∧ Text.FirstAt name line column := by
  constructor
  · rintro ⟨⟨_, ⟨⟩, found⟩, -⟩
    exact found
  · intro found
    exact ⟨⟨line, rfl, found⟩, fun j before => absurd before (Nat.not_lt_zero j)⟩

theorem foundAt_cons_succ_iff :
    FoundAt p name (line :: ls) (i + 1) column ↔
      (p line = true → ¬ name <:+: line) ∧ FoundAt p name ls i column := by
  constructor
  · rintro ⟨here, earlier⟩
    refine ⟨earlier 0 (Nat.succ_pos i) line rfl, here, ?_⟩
    intro j before
    exact earlier (j + 1) (Nat.succ_lt_succ before)
  · rintro ⟨notHere, here, earlier⟩
    refine ⟨here, ?_⟩
    intro j before other listed
    cases j with
    | zero =>
      cases listed
      exact notHere
    | succ j => exact earlier j (Nat.lt_of_succ_lt_succ before) other listed

theorem search_eq_some_iff :
    (if p line then Text.find? name line else none) = some column ↔
      p line = true ∧ Text.FirstAt name line column := by
  simp [Text.find?_eq_some_iff]

theorem search_eq_none_iff :
    (if p line then Text.find? name line else none) = none ↔
      (p line = true → ¬ name <:+: line) := by
  simp [Text.find?_eq_none_iff, Text.infix_iff_exists_prefix_drop]

/-- A search in lines finds the first line that has the name, and the first place in it. -/
theorem findInLines_eq_some_iff {number : Nat} {place : Location} :
    findInLines p name number ls = some place ↔
      ∃ i, place.line = number + i ∧ FoundAt p name ls i place.character := by
  induction ls generalizing number with
  | nil =>
    refine iff_of_false (Option.some_ne_none place).symm ?_
    rintro ⟨i, -, ⟨line, listed, -⟩, -⟩
    cases listed
  | cons line ls ih =>
    unfold findInLines
    split
    · next column search =>
      obtain ⟨holds, first⟩ := search_eq_some_iff.mp search
      constructor
      · rintro ⟨⟩
        exact ⟨0, rfl, foundAt_cons_zero_iff.mpr ⟨holds, first⟩⟩
      · rintro ⟨i, numbered, there⟩
        cases i with
        | zero =>
          obtain ⟨-, same⟩ := foundAt_cons_zero_iff.mp there
          rw [first.unique same, ← show place.line = number from numbered]
        | succ i =>
          obtain ⟨notHere, -⟩ := foundAt_cons_succ_iff.mp there
          exact absurd (Text.infix_iff_exists_prefix_drop.mpr ⟨column, first.here⟩) (notHere holds)
    · next search =>
      have notHere := search_eq_none_iff.mp search
      rw [ih]
      constructor
      · rintro ⟨i, numbered, there⟩
        refine ⟨i + 1, ?_, foundAt_cons_succ_iff.mpr ⟨notHere, there⟩⟩
        rw [numbered, Nat.add_assoc, Nat.add_comm 1]
      · rintro ⟨i, numbered, there⟩
        cases i with
        | zero =>
          obtain ⟨holds, found⟩ := foundAt_cons_zero_iff.mp there
          exact absurd (Text.infix_iff_exists_prefix_drop.mpr ⟨_, found.here⟩) (notHere holds)
        | succ i =>
          refine ⟨i, ?_, (foundAt_cons_succ_iff.mp there).2⟩
          rw [numbered, Nat.add_assoc, Nat.add_comm 1]

/-- A search in lines finds nothing if no line has the name. -/
theorem findInLines_eq_none_iff {number : Nat} :
    findInLines p name number ls = none ↔ ∀ line ∈ ls, p line = true → ¬ name <:+: line := by
  induction ls generalizing number with
  | nil => simp [findInLines]
  | cons line ls ih =>
    rw [List.forall_mem_cons, ← search_eq_none_iff, findInLines]
    cases search : if p line then Text.find? name line else none with
    | some column => simp
    | none => simpa using ih

theorem findInLines_zero_iff {place : Location} :
    findInLines p name 0 ls = some place ↔ FoundAt p name ls place.line place.character := by
  simp only [findInLines_eq_some_iff, Nat.zero_add, exists_eq_left']

end Lines

/-! ## Search in the whole text -/

namespace Text

variable {pattern t : Text}

theorem FirstAt.le_length {i : Nat} (found : FirstAt pattern t i) : i ≤ t.length := by
  apply Nat.le_of_not_lt
  intro past
  refine found.first t.length past ?_
  have here := found.here
  rwa [List.drop_eq_nil_of_le (Nat.le_of_lt past), ← List.drop_length (l := t)] at here

/-- A pattern that some line of a text has stands in the text, where that line is. -/
theorem exists_prefix_drop_of_infix {number : Nat} {front line back : Text}
    (isLine : LineAt t number front line back) (isPiece : pattern <:+: line) :
    ∃ offset, pattern <+: t.drop offset ∧ (t.take offset).count '\n' = number := by
  obtain ⟨column, here⟩ := infix_iff_exists_prefix_drop.mp isPiece
  obtain ⟨first, -, found⟩ := exists_firstAt here
  exact ⟨front.length + first, found.here.trans (isLine.drop_prefix_drop found.le_length),
    isLine.count_take found.le_length⟩

/-- Where a pattern without newlines stands first in a text, it stands first in its line, and no
line before has it. -/
theorem FirstAt.foundAt (single : '\n' ∉ pattern) {i : Nat} (found : FirstAt pattern t i) :
    FoundAt (fun _ => true) pattern (lines t) ((t.take i).count '\n')
      ((t.take i).reverse.takeWhile (· != '\n')).length := by
  have fewer : (t.take i).count '\n' ≤ t.count '\n' := (List.take_sublist i t).count_le '\n'
  have inside : (t.take i).count '\n' < (lines t).length := by
    rw [length_lines]
    exact Nat.lt_succ_of_le fewer
  obtain ⟨front, line, back, isLine, listed, -⟩ := LineIndex.exists_lineAt 0 t inside
  obtain ⟨after, before⟩ := isLine.holds found.le_length rfl
  obtain ⟨column, rfl⟩ := Nat.exists_eq_add_of_le after
  have within : column ≤ line.length := Nat.le_of_add_le_add_left before
  rw [isLine.length_takeWhile_reverse within]
  refine ⟨⟨line, listed, rfl, isLine.prefix_drop single within found.here, ?_⟩, ?_⟩
  · intro j earlier here
    have inLine : j ≤ line.length := Nat.le_trans (Nat.le_of_lt earlier) within
    exact found.first _ (Nat.add_lt_add_left earlier _)
      (here.trans (isLine.drop_prefix_drop inLine))
  · intro j earlier other isOther _ isPiece
    -- An occurrence in an earlier line has fewer newlines before it, so it is an earlier one.
    obtain ⟨_, _, _, isEarlier, again, -⟩ :=
      LineIndex.exists_lineAt 0 t (Nat.lt_trans earlier inside)
    cases isOther.symm.trans again
    obtain ⟨offset, here, counted⟩ := exists_prefix_drop_of_infix isEarlier isPiece
    refine found.first offset (Nat.lt_of_not_le fun later => ?_) here
    have more := (List.take_sublist_take_left later (l := t)).count_le '\n'
    rw [counted] at more
    exact absurd earlier (Nat.not_lt.mpr more)

end Text

/-- The two searches agree on a pattern without newlines. What they find is a line of the text with
the pattern, no line before it has the pattern, and in the line the pattern stands nowhere before
the column that is found. -/
theorem findText_eq_findInServiceContexts {pattern : Text} (single : '\n' ∉ pattern) (t : Text) :
    findText pattern t = findInServiceContexts pattern t ∧
      ∀ place, findText pattern t = some place ↔
        (∃ line, (Text.lines t)[place.line]? = some line ∧
          Text.FirstAt pattern line place.character) ∧
        ∀ i < place.line, ∀ line, (Text.lines t)[i]? = some line → ¬ pattern <:+: line := by
  have agree : findText pattern t = findInServiceContexts pattern t := by
    unfold findText findInServiceContexts
    cases search : Text.find? pattern t with
    | some i =>
      have first := Text.find?_eq_some_iff.mp search
      exact (findInLines_zero_iff.mpr (first.foundAt single)).symm
    | none =>
      symm
      rw [Option.map_none, findInLines_eq_none_iff]
      intro line member _ isPiece
      obtain ⟨number, listed⟩ := List.mem_iff_getElem?.mp member
      obtain ⟨inside, -⟩ := List.getElem?_eq_some_iff.mp listed
      obtain ⟨_, _, _, isLine, again, -⟩ := LineIndex.exists_lineAt 0 t inside
      cases listed.symm.trans again
      obtain ⟨offset, here, -⟩ := Text.exists_prefix_drop_of_infix isLine isPiece
      exact Text.find?_eq_none_iff.mp search offset here
  refine ⟨agree, ?_⟩
  intro place
  rw [agree, findInServiceContexts, findInLines_zero_iff]
  constructor
  · rintro ⟨⟨line, listed, -, first⟩, earlier⟩
    exact ⟨⟨line, listed, first⟩, fun i before line listed => earlier i before line listed rfl⟩
  · rintro ⟨⟨line, listed, first⟩, earlier⟩
    exact ⟨⟨line, listed, rfl, first⟩, fun i before line listed _ => earlier i before line listed⟩

/-- The empty pattern stands at the start of the first line. Of occurrences that overlap the first
one is found, here on a line after an empty one. -/
theorem findText_eq_findInServiceContexts_edges :
    '\n' ∉ ([] : Text) ∧ '\n' ∉ "aa".toList ∧
      findText [] "\n".toList = some ⟨0, 0⟩ ∧
      findText "aa".toList "a\n\nbaaa".toList = some ⟨2, 1⟩ ∧
      findText [] "\n".toList = findInServiceContexts [] "\n".toList ∧
      findText "aa".toList "a\n\nbaaa".toList =
        findInServiceContexts "aa".toList "a\n\nbaaa".toList := by
  have single : '\n' ∉ "aa".toList := by decide
  exact ⟨List.not_mem_nil, single, by decide, by decide,
    (findText_eq_findInServiceContexts List.not_mem_nil _).1,
    (findText_eq_findInServiceContexts single _).1⟩

end JavaSurvey
