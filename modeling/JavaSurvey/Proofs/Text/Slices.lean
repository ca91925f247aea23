import JavaSurvey.Text.Basic

/-!
# Slices and rests

A slice between two offsets in order is the middle one of three pieces of the list, and a rest is
the second one of two.
-/

namespace JavaSurvey.Text

universe u

variable {α : Type u}

/-- An offset within a list stands for its own place. -/
theorem bound_eq_toNat {length : Nat} {i : Int} (nonneg : 0 ≤ i) (bounded : i ≤ length) :
    bound length i = i.toNat := by
  rw [bound, if_neg (by omega)]
  omega

theorem slice_eq {xs : List α} {first last : Int} (nonneg : 0 ≤ first) (ordered : first ≤ last)
    (bounded : last ≤ xs.length) :
    slice xs first last = (xs.drop first.toNat).take (last.toNat - first.toNat) := by
  rw [slice, bound_eq_toNat nonneg (by omega), bound_eq_toNat (by omega) bounded]

/-- The slice from the end of the first of three pieces to the start of the last is the middle
one. -/
theorem slice_append (front middle back : List α) :
    slice (front ++ middle ++ back) front.length (front.length + middle.length) = middle := by
  have length : ((front.length : Int) + middle.length).toNat - (front.length : Int).toNat =
      middle.length := by omega
  rw [slice_eq (by omega) (by omega) (by simp only [List.length_append]; omega), length,
    Int.toNat_natCast, List.append_assoc, List.drop_left, List.take_left]

/-- A list falls into what is before a slice, the slice, and what is after it. -/
theorem exists_append_slice {xs : List α} {first last : Int} (nonneg : 0 ≤ first)
    (ordered : first ≤ last) (bounded : last ≤ xs.length) :
    ∃ front back, xs = front ++ slice xs first last ++ back ∧ front.length = first ∧
      (slice xs first last).length = last - first := by
  rw [slice_eq nonneg ordered bounded]
  refine ⟨xs.take first.toNat, (xs.drop first.toNat).drop (last.toNat - first.toNat), ?_, ?_, ?_⟩
  · rw [List.append_assoc, List.take_append_drop, List.take_append_drop]
  · rw [List.length_take]
    omega
  · rw [List.length_take, List.length_drop]
    omega

theorem slice_ne_nil (xs : List α) {first last : Int} (nonneg : 0 ≤ first) (ordered : first < last)
    (bounded : last ≤ xs.length) : slice xs first last ≠ [] := by
  obtain ⟨-, -, -, -, length⟩ := exists_append_slice nonneg (Int.le_of_lt ordered) bounded
  intro empty
  rw [empty, List.length_nil] at length
  omega

/-- A slice is put together from two, at any offset between its bounds. -/
theorem slice_split {first middle last : Int} (xs : List α) (nonneg : 0 ≤ first)
    (left : first ≤ middle) (right : middle ≤ last) (bounded : last ≤ xs.length) :
    slice xs first last = slice xs first middle ++ slice xs middle last := by
  have parts : last.toNat - first.toNat =
      (middle.toNat - first.toNat) + (last.toNat - middle.toNat) := by omega
  have start : first.toNat + (middle.toNat - first.toNat) = middle.toNat := by omega
  rw [slice_eq nonneg (by omega) bounded, slice_eq nonneg left (by omega),
    slice_eq (by omega) right bounded, parts, List.take_add, List.drop_drop, start]

/-- A slice is no longer than the way between its bounds, wherever these are. -/
theorem length_slice_le (xs : List α) {first last : Int} (ordered : first ≤ last) :
    ((slice xs first last).length : Int) ≤ last - first := by
  rw [slice, List.length_take, List.length_drop, bound, bound]
  split <;> split <;> omega

/-- What is left of a slice after its first elements is the slice from there on. -/
theorem drop_slice {xs : List α} {first last : Int} (nonneg : 0 ≤ first) (k : Nat) :
    (slice xs first last).drop k = slice xs (first + k) last := by
  have start : bound xs.length first = min first.toNat xs.length := by
    rw [bound, if_neg (by omega)]
  have later : bound xs.length (first + k) = min (first.toNat + k) xs.length := by
    rw [bound, if_neg (by omega)]
    omega
  rw [slice, slice, start, later, List.drop_take, List.drop_drop]
  by_cases inside : first.toNat + k ≤ xs.length
  · rw [Nat.min_eq_left (by omega), Nat.min_eq_left inside, Nat.sub_sub]
  · -- Past the end of the list nothing is left on either side.
    rw [List.drop_eq_nil_of_le (by omega), List.drop_eq_nil_of_le (by omega), List.take_nil,
      List.take_nil]

/-- Between natural numbers a slice is what they say, however far they go. -/
theorem slice_natCast (xs : List α) (first last : Nat) :
    slice xs first last = (xs.drop first).take (last - first) := by
  have place (i : Nat) : bound xs.length i = min i xs.length := by
    rw [bound, if_neg (Int.not_lt.mpr (Int.natCast_nonneg i)), Int.toNat_natCast]
  rw [slice, place, place]
  rcases Nat.le_total first xs.length with inside | outside
  · rw [Nat.min_eq_left inside, List.take_eq_take_iff, List.length_drop]
    omega
  · rw [Nat.min_eq_right outside, List.drop_length, List.drop_eq_nil_of_le outside, List.take_nil,
      List.take_nil]

/-- What is left of a list from an offset on is a slice and what is left after it. -/
theorem drop_eq_slice_append (xs : List α) {first last : Nat} (ordered : first ≤ last) :
    xs.drop first = slice xs first last ++ xs.drop last := by
  have rest : (xs.drop first).drop (last - first) = xs.drop last := by
    rw [List.drop_drop, Nat.add_sub_cancel' ordered]
  rw [slice_natCast, ← rest, List.take_append_drop]

/-- A piece that stands somewhere in a list ends in it. -/
theorem prefix_drop_bounded {xs piece : List α} {i : Nat} (nonempty : piece ≠ [])
    (here : piece <+: xs.drop i) : i + piece.length ≤ xs.length := by
  have long := here.length_le
  have pos : 0 < piece.length := List.length_pos_iff.mpr nonempty
  rw [List.length_drop] at long
  omega

/-- A piece that does not have an element stands before it. -/
theorem prefix_of_prefix_append_cons {piece front back : List α} {x : α} (absent : x ∉ piece)
    (here : piece <+: front ++ x :: back) : piece <+: front := by
  rcases List.prefix_or_prefix_of_prefix here (List.prefix_append front (x :: back)) with
    before | ⟨more, rfl⟩
  · exact before
  · rw [List.prefix_append_right_inj] at here
    cases more with
    | nil => simp
    | cons y more =>
      obtain ⟨rfl, -⟩ := List.cons_prefix_cons.mp here
      exact absurd (List.mem_append_right _ List.mem_cons_self) absent

/-- A slice is a front of what is left from its start on. -/
theorem slice_prefix_drop (xs : List α) {first last : Int} (nonneg : 0 ≤ first)
    (forward : 0 ≤ last) : slice xs first last <+: xs.drop first.toNat := by
  obtain ⟨first, rfl⟩ := Int.eq_ofNat_of_zero_le nonneg
  obtain ⟨last, rfl⟩ := Int.eq_ofNat_of_zero_le forward
  rw [slice_natCast, Int.toNat_natCast]
  exact List.take_prefix _ _

/-- A front of what is left from an offset on is the slice of its length. -/
theorem slice_eq_of_prefix_drop {xs piece : List α} {first : Int} (nonneg : 0 ≤ first)
    (here : piece <+: xs.drop first.toNat) : slice xs first (first + piece.length) = piece := by
  obtain ⟨first, rfl⟩ := Int.eq_ofNat_of_zero_le nonneg
  rw [← Int.natCast_add, slice_natCast, Nat.add_sub_cancel_left]
  exact (List.prefix_iff_eq_take.mp here).symm

/-- Slices with the same start are prefixes of each other. -/
theorem slice_prefix (xs : List α) {first last last' : Int} (nonneg : 0 ≤ last)
    (ordered : last ≤ last') : slice xs first last <+: slice xs first last' := by
  have ends : bound xs.length last ≤ bound xs.length last' := by
    rw [bound, bound, if_neg (by omega), if_neg (by omega)]
    omega
  exact List.take_prefix_take_left (Nat.sub_le_sub_right ends _)

theorem anyRest_iff {p : Text → Bool} {t : Text} :
    anyRest p t = true ↔ ∃ front rest, t = front ++ rest ∧ p rest = true := by
  induction t with
  | nil =>
    constructor
    · exact fun holds => ⟨[], [], rfl, holds⟩
    · rintro ⟨front, rest, parts, holds⟩
      obtain ⟨-, rfl⟩ := List.append_eq_nil_iff.mp parts.symm
      exact holds
  | cons c t ih =>
    rw [anyRest, Bool.or_eq_true, ih]
    constructor
    · rintro (here | ⟨front, rest, rfl, later⟩)
      · exact ⟨[], c :: t, rfl, here⟩
      · exact ⟨c :: front, rest, rfl, later⟩
    · rintro ⟨front, rest, parts, holds⟩
      cases front with
      | nil =>
        cases parts
        exact .inl holds
      | cons d front =>
        cases parts
        exact .inr ⟨front, rest, rfl, holds⟩

theorem takeWhile_ne_append [DecidableEq α] {x : α} {front : List α} (absent : x ∉ front)
    (rest : List α) :
    (front ++ rest).takeWhile (· != x) = front ++ rest.takeWhile (· != x) := by
  apply List.takeWhile_append_of_pos
  intro y member
  exact bne_iff_ne.mpr fun same => absent (same ▸ member)

/-- The elements up to the first one of some value. -/
theorem takeWhile_ne_append_cons [DecidableEq α] {x : α} {front : List α} (absent : x ∉ front)
    (rest : List α) : (front ++ x :: rest).takeWhile (· != x) = front := by
  rw [takeWhile_ne_append absent, List.takeWhile_cons_of_neg (by simp), List.append_nil]

theorem takeWhile_ne_of_not_mem [DecidableEq α] {x : α} {xs : List α} (absent : x ∉ xs) :
    xs.takeWhile (· != x) = xs := by
  simpa using takeWhile_ne_append absent []

/-- What is found last is an element that was looked for. -/
theorem findLast?_eq_some {p : α → Bool} {xs : List α} {i : Nat} (found : findLast? p xs = some i) :
    ∃ x, xs[i]? = some x ∧ p x = true := by
  induction xs generalizing i with
  | nil => cases found
  | cons x xs ih =>
    rw [findLast?] at found
    cases later : findLast? p xs with
    | some j =>
      rw [later] at found
      cases found
      exact ih later
    | none =>
      rw [later] at found
      dsimp only at found
      split at found
      · next holds =>
        cases found
        exact ⟨x, rfl, holds⟩
      · cases found

end JavaSurvey.Text
