import JavaSurvey.Text.Chars
import Mathlib.Data.List.Infix
import Mathlib.Data.List.TakeWhile

/-!
# Blanks and words

Trimming a text cuts off the blanks at its ends, and none of the pieces that have no blanks.

1. `isWord_of_isBlank`: no blank is a word character;
2. `trim_between`: what stands between two such pieces is kept when the text is trimmed;
3. `exists_trim_parts`: only blanks are cut off, and `trim_eq_nil_iff`: all is if all is blank;
4. `OccursOnce.unique`: a word that occurs once is found in one place only.
-/

namespace JavaSurvey.Text

/-- The members of a set that is given by its boundaries, when each start has an end. -/
def members : List Nat → List Nat
  | first :: last :: rest => List.range' first (last - first) ++ members rest
  | _ => []

theorem mem_members {bounds : List Nat} (paired : bounds.length % 2 = 0) {n : Nat}
    (member : inside bounds n = true) : n ∈ members bounds := by
  fun_induction members bounds with
  | case1 first last rest ih =>
    simp only [List.length_cons] at paired
    rw [List.mem_append, List.mem_range'_1]
    rw [inside] at member
    split at member
    · cases member
    · rw [inside] at member
      split at member
      · exact .inl (by omega)
      · exact .inr (ih (by omega) (by simpa using member))
  | case2 bounds short =>
    -- Only a set without boundaries is left, since a single start has no end.
    cases bounds with
    | nil => cases member
    | cons first rest =>
      cases rest with
      | nil => cases paired
      | cons last rest => exact absurd rfl (short first last rest)

/-- No blank is a word character. -/
theorem isWord_of_isBlank {c : Char} (blank : isBlank c = true) : isWord c = false := by
  have apart : (members blankBounds).all (!inside Table.wordBounds ·) = true := by decide +kernel
  have noWord := List.all_eq_true.mp apart c.toNat (mem_members (by decide) blank)
  rw [isWord]
  simpa using noWord

/-- A text has characters, and none of them is a blank. -/
structure Solid (t : Text) : Prop where
  nonempty : t ≠ []
  solid : ∀ c ∈ t, isBlank c = false

instance (t : Text) : Decidable t.Solid :=
  decidable_of_iff (t ≠ [] ∧ t.all (!isBlank ·) = true)
    ⟨fun ⟨a, b⟩ => ⟨a, by simpa using b⟩, fun ⟨a, b⟩ => ⟨a, by simpa using b⟩⟩

theorem Solid.reverse {t : Text} (solid : t.Solid) : Text.Solid t.reverse :=
  ⟨by simpa using solid.nonempty, by simpa using solid.solid⟩

theorem trimLeft_of_solid {a : Text} (solid : a.Solid) (t : Text) :
    trimLeft (a ++ t) = a ++ t := by
  obtain ⟨nonempty, solid⟩ := solid
  cases a with
  | nil => exact absurd rfl nonempty
  | cons c a => exact List.dropWhile_cons_of_neg (by simp [solid c List.mem_cons_self])

theorem trimLeft_of_blanks {blanks : Text} (blank : ∀ c ∈ blanks, isBlank c = true) (t : Text) :
    trimLeft (blanks ++ t) = trimLeft t :=
  List.dropWhile_append_of_pos blank

theorem trimLeft_append_solid {a : Text} (solid : a.Solid) (front t : Text) :
    trimLeft (front ++ (a ++ t)) = trimLeft front ++ (a ++ t) := by
  have stays := trimLeft_of_solid solid t
  rw [trimLeft] at stays
  rw [trimLeft, trimLeft, List.dropWhile_append, stays]
  split
  · next empty => rw [List.isEmpty_iff.mp empty, List.nil_append]
  · rfl

theorem trimRight_append_solid {a : Text} (solid : a.Solid) (t back : Text) :
    trimRight (t ++ a ++ back) = t ++ a ++ trimRight back := by
  have reversed := trimLeft_append_solid solid.reverse back.reverse t.reverse
  rw [trimLeft, trimLeft] at reversed
  rw [trimRight, trimRight, List.reverse_append, List.reverse_append, reversed]
  simp

theorem trimRight_prefix (t : Text) : trimRight t <+: t := by
  rw [trimRight, ← List.reverse_suffix, List.reverse_reverse]
  exact List.dropWhile_suffix _

/-- Blanks are cut off at both ends, and nothing between two solid pieces is. -/
theorem trim_between {a b : Text} (first : a.Solid) (last : b.Solid) (front middle back : Text) :
    trim (front ++ (a ++ middle ++ b) ++ back) =
      trimLeft front ++ (a ++ middle ++ b) ++ trimRight back := by
  rw [trim, List.append_assoc front, List.append_assoc a, List.append_assoc a,
    trimLeft_append_solid first]
  have right := trimRight_append_solid last (trimLeft front ++ (a ++ middle)) back
  simpa only [List.append_assoc] using right

/-- Trimming cuts off blanks before the rest, and blanks after it. -/
theorem exists_trim_parts (t : Text) :
    ∃ front back, t = front ++ trim t ++ back ∧
      (∀ c ∈ front, isBlank c = true) ∧ ∀ c ∈ back, isBlank c = true := by
  have left : t = t.takeWhile isBlank ++ trimLeft t := List.takeWhile_append_dropWhile.symm
  have right : trimLeft t = trim t ++ ((trimLeft t).reverse.takeWhile isBlank).reverse := by
    rw [trim, trimRight, ← List.reverse_append, List.takeWhile_append_dropWhile,
      List.reverse_reverse]
  refine ⟨t.takeWhile isBlank, ((trimLeft t).reverse.takeWhile isBlank).reverse, ?_, ?_, ?_⟩
  · rw [List.append_assoc, ← right, ← left]
  · intro c member
    exact List.mem_takeWhile_imp member
  · intro c member
    exact List.mem_takeWhile_imp (List.mem_reverse.mp member)

theorem trim_eq_nil_iff {t : Text} : trim t = [] ↔ ∀ c ∈ t, isBlank c = true := by
  constructor
  · intro empty
    obtain ⟨front, back, parts, blankFront, blankBack⟩ := exists_trim_parts t
    rw [empty, List.append_nil] at parts
    rw [parts]
    intro c member
    exact (List.mem_append.mp member).elim (blankFront c) (blankBack c)
  · intro blank
    rw [trim, trimLeft, List.dropWhile_eq_nil_iff.mpr blank]
    rfl

/-- A text has a word, at least one blank and another word, one after the other. -/
def HasWords (word next t : Text) : Prop :=
  ∃ front blanks back, t = front ++ (word ++ blanks ++ next) ++ back ∧ blanks ≠ [] ∧
    ∀ c ∈ blanks, isBlank c = true

/-- A word occurs in a text once. -/
def OccursOnce (word t : Text) : Prop :=
  (t.tails.filter (word.isPrefixOf ·)).length = 1

instance (word t : Text) : Decidable (OccursOnce word t) :=
  inferInstanceAs (Decidable (_ = _))

theorem OccursOnce.unique {word t front back front' back' : Text} (once : OccursOnce word t)
    (here : t = front ++ (word ++ back)) (there : t = front' ++ (word ++ back')) :
    front = front' ∧ back = back' := by
  obtain ⟨rest, only⟩ := List.length_eq_one_iff.mp once
  have isRest {x y : Text} (found : t = x ++ (word ++ y)) : word ++ y = rest := by
    have listed : word ++ y ∈ t.tails.filter (word.isPrefixOf ·) := by
      refine List.mem_filter.mpr ⟨(List.mem_tails _ _).mpr ⟨x, found.symm⟩, ?_⟩
      exact List.isPrefixOf_iff_prefix.mpr (List.prefix_append word y)
    rw [only] at listed
    exact List.mem_singleton.mp listed
  have same : word ++ back = word ++ back' := (isRest here).trans (isRest there).symm
  have sameBack := List.append_cancel_left same
  subst sameBack
  exact ⟨List.append_cancel_right (here.symm.trans there), rfl⟩

end JavaSurvey.Text
