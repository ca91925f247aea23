import JavaSurvey.Order
import Mathlib.Data.List.Nodup

/-!
# Sorted lists

Putting an element in its place keeps a list sorted, so sorting by a key gives a sorted list of the
same elements (`sortByKey_sorted`, `sortByKey_perm`). Where keys are distinct they increase
(`sortByKey_increasing`), and there is only one such list (`sortByKey_eq_of_perm`).

Elements of equal key keep their order: leaving some out makes no difference to the others
(`filter_sortByKey`), and the first of them stays first (`head?_sortByKey_append`).
-/

namespace JavaSurvey

variable {α κ : Type} [LT κ] [DecidableLT κ]

theorem mem_insertByKey {key : α → κ} {x y : α} {xs : List α} :
    y ∈ insertByKey key x xs ↔ y = x ∨ y ∈ xs := by
  induction xs with
  | nil => simp [insertByKey]
  | cons z rest ih =>
    rw [insertByKey]
    split
    · exact List.mem_cons
    · simp only [List.mem_cons, ih]
      exact or_left_comm

theorem insertByKey_perm (key : α → κ) (x : α) (xs : List α) :
    (insertByKey key x xs).Perm (x :: xs) := by
  induction xs with
  | nil => exact List.Perm.refl _
  | cons y rest ih =>
    rw [insertByKey]
    split
    · exact List.Perm.refl _
    · exact (ih.cons y).trans (List.Perm.swap x y rest)

theorem sortByKey_perm (key : α → κ) (xs : List α) : (sortByKey key xs).Perm xs := by
  have run : ∀ sorted : List α,
      (xs.foldl (fun sorted x => insertByKey key x sorted) sorted).Perm (xs ++ sorted) := by
    induction xs with
    | nil => exact fun sorted => List.Perm.refl _
    | cons x rest ih =>
      intro sorted
      have inserted := (insertByKey_perm key x sorted).append_left rest
      exact (ih _).trans (inserted.trans List.perm_middle)
  exact (run []).trans (by rw [List.append_nil])

theorem insertByKey_eq_cons {key : α → κ} {x : α} {xs : List α}
    (least : ∀ y ∈ xs, key x < key y) : insertByKey key x xs = x :: xs := by
  cases xs with
  | nil => rfl
  | cons y rest => rw [insertByKey, if_pos (least y List.mem_cons_self)]

variable [LE κ] [Std.IsLinearOrder κ] [Std.LawfulOrderLT κ]

theorem insertByKey_sorted {key : α → κ} (x : α) {xs : List α}
    (sorted : xs.Pairwise fun a b => key a ≤ key b) :
    (insertByKey key x xs).Pairwise fun a b => key a ≤ key b := by
  induction xs with
  | nil => exact List.pairwise_singleton _ x
  | cons y rest ih =>
    obtain ⟨least, rest_sorted⟩ := List.pairwise_cons.mp sorted
    rw [insertByKey]
    split
    · next less =>
      refine List.pairwise_cons.mpr ⟨fun z member => ?_, sorted⟩
      rcases List.mem_cons.mp member with rfl | later
      · exact Std.le_of_lt less
      · exact Std.le_trans (Std.le_of_lt less) (least z later)
    · next notLess =>
      refine List.pairwise_cons.mpr ⟨fun z member => ?_, ih rest_sorted⟩
      rcases mem_insertByKey.mp member with rfl | later
      · exact Std.not_lt.mp notLess
      · exact least z later

/-- Sorting gives a list in the order of the keys. -/
theorem sortByKey_sorted (key : α → κ) (xs : List α) :
    (sortByKey key xs).Pairwise fun a b => key a ≤ key b := by
  -- What is sorted so far stays sorted, whatever is still to come.
  have run : ∀ sorted : List α, (sorted.Pairwise fun a b => key a ≤ key b) →
      (xs.foldl (fun sorted x => insertByKey key x sorted) sorted).Pairwise
        fun a b => key a ≤ key b := by
    induction xs with
    | nil => exact fun sorted inOrder => inOrder
    | cons x rest ih => exact fun sorted inOrder => ih _ (insertByKey_sorted x inOrder)
  exact run [] List.Pairwise.nil

/-- Keys that are distinct increase after sorting. -/
theorem sortByKey_increasing {key : α → κ} {xs : List α} (distinct : (xs.map key).Nodup) :
    (sortByKey key xs).Pairwise fun a b => key a < key b := by
  have apart : (sortByKey key xs).Pairwise fun a b => key a ≠ key b :=
    List.pairwise_map.mp (((sortByKey_perm key xs).map key).nodup_iff.mpr distinct)
  refine ((sortByKey_sorted key xs).and apart).imp fun both => ?_
  exact Std.lt_of_le_of_ne both.1 both.2

/-- Sorting brings a list into the only order in which its keys increase. -/
theorem sortByKey_eq_of_perm {key : α → κ} {xs ys : List α} (perm : xs.Perm ys)
    (increasing : ys.Pairwise fun a b => key a < key b) : sortByKey key xs = ys := by
  have sorted := (sortByKey_perm key xs).trans perm
  have distinct : (ys.map key).Nodup := by
    rw [List.Nodup, List.pairwise_map]
    exact increasing.imp Std.ne_of_lt
  refine List.Perm.eq_of_pairwise (fun a b inSorted inList le ge => ?_) (sortByKey_sorted key xs)
    (increasing.imp Std.le_of_lt) sorted
  exact List.inj_on_of_nodup_map distinct (sorted.mem_iff.mp inSorted) inList
    (Std.le_antisymm le ge)

/-! ## Elements of equal key -/

theorem filter_insertByKey (p : α → Bool) {key : α → κ} (x : α) {xs : List α}
    (sorted : xs.Pairwise fun a b => key a ≤ key b) :
    (insertByKey key x xs).filter p =
      if p x then insertByKey key x (xs.filter p) else xs.filter p := by
  induction xs with
  | nil => cases chosen : p x <;> simp [insertByKey, chosen]
  | cons y rest ih =>
    obtain ⟨least, rest_sorted⟩ := List.pairwise_cons.mp sorted
    rw [insertByKey]
    split
    · next less =>
      have first : ∀ z ∈ (y :: rest).filter p, key x < key z := by
        intro z member
        rcases List.mem_cons.mp (List.mem_filter.mp member).1 with rfl | later
        · exact less
        · exact Std.lt_of_lt_of_le less (least z later)
      rw [insertByKey_eq_cons first, List.filter_cons]
    · next notLess =>
      rw [List.filter_cons, List.filter_cons, ih rest_sorted]
      cases p y with
      | false => simp
      | true =>
        rw [if_pos rfl, if_pos rfl, insertByKey, if_neg notLess]
        split <;> rfl

theorem filter_sortByKey (p : α → Bool) (key : α → κ) (xs : List α) :
    (sortByKey key xs).filter p = sortByKey key (xs.filter p) := by
  have run : ∀ sorted : List α, (sorted.Pairwise fun a b => key a ≤ key b) →
      (xs.foldl (fun sorted x => insertByKey key x sorted) sorted).filter p =
        (xs.filter p).foldl (fun sorted x => insertByKey key x sorted) (sorted.filter p) := by
    induction xs with
    | nil => exact fun sorted inOrder => rfl
    | cons x rest ih =>
      intro sorted inOrder
      rw [List.foldl_cons, ih _ (insertByKey_sorted x inOrder), filter_insertByKey p x inOrder,
        List.filter_cons]
      split <;> rfl
  exact run [] List.Pairwise.nil

theorem head?_foldl_insertByKey {key : α → κ} {first : α} {ys : List α}
    (least : ∀ y ∈ ys, key first ≤ key y) (rest : List α) :
    (ys.foldl (fun sorted y => insertByKey key y sorted) (first :: rest)).head? = some first := by
  induction ys generalizing rest with
  | nil => rfl
  | cons y ys ih =>
    obtain ⟨here, later⟩ := List.forall_mem_cons.mp least
    rw [List.foldl_cons, insertByKey, if_neg (Std.not_lt.mpr here)]
    exact ih later _

/-- Elements that come later and have no lesser key than one of the others leave the first one
where it is. -/
theorem head?_sortByKey_append {key : α → κ} {x : α} {xs ys : List α} (member : x ∈ xs)
    (least : ∀ y ∈ ys, key x ≤ key y) :
    (sortByKey key (xs ++ ys)).head? = (sortByKey key xs).head? := by
  have isSorted : x ∈ sortByKey key xs := (sortByKey_perm key xs).mem_iff.mpr member
  have sorted := sortByKey_sorted key xs
  rw [sortByKey, List.foldl_append, ← sortByKey]
  obtain ⟨first, rest, parts⟩ := List.exists_cons_of_ne_nil (List.ne_nil_of_mem isSorted)
  rw [parts] at isSorted sorted ⊢
  refine head?_foldl_insertByKey (fun y later => ?_) rest
  rcases List.mem_cons.mp isSorted with rfl | inRest
  · exact least y later
  · exact Std.le_trans ((List.pairwise_cons.mp sorted).1 x inRest) (least y later)

end JavaSurvey
