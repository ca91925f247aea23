import JavaSurvey.Proofs.Text.Slices

/-!
# Occurrences

What the searches in a text find.

1. `find?_eq_some_iff` and `find?_eq_none_iff`: a pattern is found where it stands first;
2. `occursIn_iff`: a pattern that is found somewhere is a piece of the text;
3. `findLast?_append_cons` and `findLast?_eq_none`: an element is found where it stands last.
-/

namespace JavaSurvey.Text

/-- A pattern stands in a text at `i`, and nowhere before. -/
structure FirstAt (pattern t : Text) (i : Nat) : Prop where
  here : pattern <+: t.drop i
  first : ∀ j < i, ¬ pattern <+: t.drop j

theorem FirstAt.unique {pattern t : Text} {i j : Nat} (left : FirstAt pattern t i)
    (right : FirstAt pattern t j) : i = j := by
  apply Nat.le_antisymm
  · exact Nat.le_of_not_lt fun before => left.first j before right.here
  · exact Nat.le_of_not_lt fun before => right.first i before left.here

theorem firstAt_zero_iff {pattern t : Text} : FirstAt pattern t 0 ↔ pattern <+: t :=
  ⟨fun found => found.here, fun here => ⟨here, fun j before => absurd before (Nat.not_lt_zero j)⟩⟩

theorem firstAt_cons_succ_iff {pattern t : Text} {c : Char} {i : Nat} :
    FirstAt pattern (c :: t) (i + 1) ↔ ¬ pattern <+: c :: t ∧ FirstAt pattern t i := by
  constructor
  · intro found
    refine ⟨found.first 0 (Nat.succ_pos i), found.here, ?_⟩
    intro j before
    exact found.first (j + 1) (Nat.succ_lt_succ before)
  · rintro ⟨notHere, found⟩
    refine ⟨found.here, ?_⟩
    intro j before
    cases j with
    | zero => exact notHere
    | succ j => exact found.first j (Nat.lt_of_succ_lt_succ before)

/-- A pattern is found where it stands first. -/
theorem find?_eq_some_iff {pattern t : Text} {i : Nat} :
    find? pattern t = some i ↔ FirstAt pattern t i := by
  induction t generalizing i with
  | nil =>
    unfold find?
    split
    · next empty =>
      obtain rfl := List.isEmpty_iff.mp empty
      have atStart : FirstAt [] [] 0 := firstAt_zero_iff.mpr List.nil_prefix
      constructor
      · rintro ⟨⟩
        exact atStart
      · intro found
        rw [atStart.unique found]
    · next nonempty =>
      refine iff_of_false (Option.some_ne_none i).symm ?_
      intro found
      have here := found.here
      rw [List.drop_nil, List.prefix_nil] at here
      exact nonempty (List.isEmpty_iff.mpr here)
  | cons c t ih =>
    unfold find?
    split
    · next here =>
      have atStart := firstAt_zero_iff.mpr (List.isPrefixOf_iff_prefix.mp here)
      constructor
      · rintro ⟨⟩
        exact atStart
      · intro found
        rw [atStart.unique found]
    · next notHere =>
      rw [List.isPrefixOf_iff_prefix] at notHere
      cases i with
      | zero =>
        refine iff_of_false ?_ fun found => notHere (firstAt_zero_iff.mp found)
        simp
      | succ i =>
        rw [firstAt_cons_succ_iff, ← ih]
        simp [notHere]

theorem exists_firstAt {pattern t : Text} {i : Nat} (here : pattern <+: t.drop i) :
    ∃ j ≤ i, FirstAt pattern t j := by
  induction i using Nat.strongRecOn with
  | ind i ih =>
    by_cases earlier : ∃ j < i, pattern <+: t.drop j
    · obtain ⟨j, before, there⟩ := earlier
      obtain ⟨k, le, found⟩ := ih j before there
      exact ⟨k, Nat.le_trans le (Nat.le_of_lt before), found⟩
    · exact ⟨i, Nat.le_refl i, here, fun j before there => earlier ⟨j, before, there⟩⟩

/-- A pattern that is not found stands nowhere. -/
theorem find?_eq_none_iff {pattern t : Text} :
    find? pattern t = none ↔ ∀ i, ¬ pattern <+: t.drop i := by
  constructor
  · intro missing i here
    obtain ⟨j, -, found⟩ := exists_firstAt here
    rw [find?_eq_some_iff.mpr found] at missing
    cases missing
  · intro nowhere
    rw [Option.eq_none_iff_forall_ne_some]
    intro i found
    exact nowhere i (find?_eq_some_iff.mp found).here

theorem infix_iff_exists_prefix_drop {pattern t : Text} :
    pattern <:+: t ↔ ∃ i, pattern <+: t.drop i := by
  rw [List.infix_iff_prefix_suffix]
  constructor
  · rintro ⟨rest, here, isRest⟩
    exact ⟨_, List.suffix_iff_eq_drop.mp isRest ▸ here⟩
  · rintro ⟨i, here⟩
    exact ⟨_, here, List.drop_suffix i t⟩

/-- A pattern is found somewhere if it is a piece of the text. -/
theorem occursIn_iff {pattern t : Text} : occursIn pattern t = true ↔ pattern <:+: t := by
  rw [occursIn, infix_iff_exists_prefix_drop]
  cases search : find? pattern t with
  | none => simpa using find?_eq_none_iff.mp search
  | some i => simpa using ⟨i, (find?_eq_some_iff.mp search).here⟩

universe u

variable {α : Type u}

/-- A list falls into what is before the last place of an element, and what is after it. -/
theorem exists_last_of_mem {x : α} {xs : List α} (member : x ∈ xs) :
    ∃ front back, xs = front ++ x :: back ∧ x ∉ back := by
  obtain ⟨after, before, reversed, absent⟩ :=
    List.eq_append_cons_of_mem (List.mem_reverse.mpr member)
  refine ⟨before.reverse, after.reverse, ?_, by rwa [List.mem_reverse]⟩
  rw [← List.reverse_reverse xs, reversed]
  simp

variable [DecidableEq α] {x : α}

theorem findLast?_eq_none {xs : List α} (absent : x ∉ xs) : findLast? (· == x) xs = none := by
  induction xs with
  | nil => rfl
  | cons y xs ih =>
    rw [List.mem_cons, not_or] at absent
    simp [findLast?, ih absent.2, Ne.symm absent.1]

/-- An element is found where it stands last. -/
theorem findLast?_append_cons {back : List α} (absent : x ∉ back) (front : List α) :
    findLast? (· == x) (front ++ x :: back) = some front.length := by
  induction front with
  | nil => simp [findLast?, findLast?_eq_none absent]
  | cons y front ih => rw [List.cons_append, findLast?, ih, List.length_cons]

end JavaSurvey.Text
