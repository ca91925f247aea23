import JavaSurvey.Workspace.Glob
import Mathlib.Data.List.Basic

/-!
# Brackets in patterns

`Pattern.StandsFor` says which characters a bracket stands for, read off the text between the
brackets from left to right. The part of a pattern is made in another way: the text is cut at the
hyphens that make ranges, and ranges that list nothing are taken out from the last to the first.

1. `bracketPieces_range`, `bracketPieces_single`: what is left then, by what the text starts with;
2. `any_pieceRanges_iff`: it lists what the text lists;
3. `bracketPart_holds_iff`: the part stands for the characters that the bracket stands for.
-/

namespace JavaSurvey

namespace Pattern

/-- What the characters of a bracket list: a character, a hyphen and a character list all from the
first to the second, and any other character lists itself. -/
def listed : Text → List CharRange
  | low :: '-' :: high :: rest => ⟨low, high⟩ :: listed rest
  | c :: rest => ⟨c, c⟩ :: listed rest
  | [] => []

/-- The character is among those listed. -/
def Lists (t : Text) (c : Char) : Prop :=
  ∃ range ∈ listed t, range.low ≤ c ∧ c ≤ range.high

/-- The characters of a bracket after the ranges at its start that list nothing. -/
def skipEmpty : Text → Text
  | low :: '-' :: high :: rest => if high < low then skipEmpty rest else low :: '-' :: high :: rest
  | t => t

/-- The bracket with these characters stands for the character. An exclamation mark that comes
first is for all but those listed after it. It comes first also where only ranges that list nothing
stand before it; a hyphen right after it then makes no range. -/
def StandsFor (inner : Text) (c : Char) : Prop :=
  match inner with
  | '!' :: rest => ¬ Lists rest c
  | _ =>
      match skipEmpty inner with
      | '!' :: '-' :: next :: rest => c ≠ '-' ∧ c ≠ next ∧ ¬ Lists rest c
      | '!' :: rest => ¬ Lists rest c
      | _ => Lists inner c

end Pattern

/-! ## The pieces of a bracket -/

theorem hyphenPieces_eq (before : Text) (free : Nat) (t : Text) :
    hyphenPieces before free t = (hyphenPieces [] free t).modifyHead (before.reverse ++ ·) := by
  induction t generalizing before free with
  | nil => simp [hyphenPieces]
  | cons c rest ih =>
    rw [hyphenPieces, hyphenPieces]
    split
    · simp
    · rw [ih (c :: before), ih [c], List.modifyHead_modifyHead]
      congr 1
      funext piece
      simp

theorem hyphenPieces_cons (c : Char) (free : Nat) (rest : Text)
    (notHyphen : ¬ (c = '-' ∧ free = 0)) :
    hyphenPieces [] free (c :: rest) = (hyphenPieces [] (free - 1) rest).modifyHead (c :: ·) := by
  rw [hyphenPieces, if_neg notHyphen, hyphenPieces_eq]
  rfl

theorem closePieces_modifyHead (c : Char) (pieces : List Text) :
    closePieces (pieces.modifyHead (c :: ·)) = (closePieces pieces).modifyHead (c :: ·) := by
  match pieces with
  | [] => rfl
  | [_] => rfl
  | [_, []] => rfl
  | _ :: (_ :: _) :: _ => rfl
  | _ :: [] :: _ :: _ => rfl

/-- The first piece is not empty unless it is the only one. -/
def Led (pieces : List Text) : Prop :=
  ∃ first rest, pieces = first :: rest ∧ (first = [] → rest = [])

theorem led_modifyHead {pieces : List Text} (nonempty : pieces ≠ []) (c : Char) :
    Led (pieces.modifyHead (c :: ·)) := by
  obtain ⟨first, rest, rfl⟩ := List.exists_cons_of_ne_nil nonempty
  exact ⟨c :: first, rest, rfl, fun empty => absurd empty (List.cons_ne_nil _ _)⟩

theorem Led.ne_nil {pieces : List Text} (led : Led pieces) : pieces ≠ [] := by
  obtain ⟨first, rest, rfl, -⟩ := led
  exact List.cons_ne_nil _ _

theorem closePieces_ne_nil {pieces : List Text} (nonempty : pieces ≠ []) :
    closePieces pieces ≠ [] := by
  match pieces with
  | [] => exact absurd rfl nonempty
  | [_] => exact List.cons_ne_nil _ _
  | [_, []] => exact List.cons_ne_nil _ _
  | _ :: (_ :: _) :: _ => exact List.cons_ne_nil _ _
  | _ :: [] :: _ :: _ => exact List.cons_ne_nil _ _

theorem hyphenPieces_ne_nil (before : Text) (free : Nat) (t : Text) :
    hyphenPieces before free t ≠ [] := by
  fun_induction hyphenPieces before free t with
  | case1 => exact List.cons_ne_nil _ _
  | case2 => exact List.cons_ne_nil _ _
  | case3 _ _ _ _ _ ih => exact ih

/-- A character in front of the first piece is not looked at when pieces are joined. -/
theorem joinPieces_modifyHead {pieces : List Text} (led : Led pieces) (c : Char) :
    joinPieces (pieces.modifyHead (c :: ·)) = (joinPieces pieces).modifyHead (c :: ·) := by
  obtain ⟨first, rest, rfl, alone⟩ := led
  cases first with
  | nil =>
    rw [alone rfl]
    rfl
  | cons d first =>
    simp only [List.modifyHead_cons, joinPieces, List.foldr_cons]
    generalize rest.foldr _ [] = later
    match later with
    | [] => rfl
    | [] :: _ => rfl
    | (high :: next) :: more =>
      simp only [List.getLast?_cons_cons]
      cases last : (d :: first).getLast? with
      | none => rfl
      | some low =>
        simp only []
        split <;> rfl

theorem joinPieces_ne_nil {pieces : List Text} (nonempty : pieces ≠ []) :
    joinPieces pieces ≠ [] := by
  obtain ⟨first, rest, rfl⟩ := List.exists_cons_of_ne_nil nonempty
  simp only [joinPieces, List.foldr_cons]
  split
  · split
    · split <;> exact List.cons_ne_nil _ _
    · exact List.cons_ne_nil _ _
  · exact List.cons_ne_nil _ _

/-- A range is kept between two pieces if it lists something. -/
theorem joinPieces_range {pieces : List Text} (led : Led pieces) (low high : Char) :
    joinPieces ([low] :: pieces.modifyHead (high :: ·)) =
      if high < low then joinPieces pieces
      else [low] :: (joinPieces pieces).modifyHead (high :: ·) := by
  have joined := joinPieces_modifyHead led high
  obtain ⟨next, more, later⟩ := List.exists_cons_of_ne_nil (joinPieces_ne_nil led.ne_nil)
  rw [later] at joined ⊢
  rw [joinPieces, List.foldr_cons, ← joinPieces, joined]
  rfl

/-- The pieces of a bracket that starts with no exclamation mark. -/
def bracketPieces (t : Text) : List Text :=
  joinPieces (closePieces (hyphenPieces [] 1 t))

theorem closedPieces_led (t : Text) : Led (closePieces (hyphenPieces [] 1 t)) := by
  cases t with
  | nil => exact ⟨[], [], rfl, fun _ => rfl⟩
  | cons c rest =>
    rw [hyphenPieces_cons c 1 rest (by simp), closePieces_modifyHead]
    exact led_modifyHead (closePieces_ne_nil (hyphenPieces_ne_nil _ _ _)) c

theorem bracketPieces_range (low high : Char) (rest : Text) :
    bracketPieces (low :: '-' :: high :: rest) =
      if high < low then bracketPieces rest
      else [low] :: (bracketPieces rest).modifyHead (high :: ·) := by
  have pieces : hyphenPieces [] 1 (low :: '-' :: high :: rest) =
      [low] :: (hyphenPieces [] 1 rest).modifyHead (high :: ·) := by
    rw [hyphenPieces_cons low 1 _ (by simp), hyphenPieces, if_pos ⟨rfl, rfl⟩,
      hyphenPieces_cons high 2 _ (by simp)]
    rfl
  -- A hyphen that closes the list is not the one of this range, since `high` follows that.
  have closed : closePieces (hyphenPieces [] 1 (low :: '-' :: high :: rest)) =
      [low] :: (closePieces (hyphenPieces [] 1 rest)).modifyHead (high :: ·) := by
    obtain ⟨next, more, later⟩ := List.exists_cons_of_ne_nil (hyphenPieces_ne_nil [] 1 rest)
    rw [pieces, ← closePieces_modifyHead, later]
    rfl
  rw [bracketPieces, closed, joinPieces_range (closedPieces_led rest)]
  rfl

theorem bracketPieces_single (c : Char) (rest : Text)
    (single : ∀ high more, rest ≠ '-' :: high :: more) :
    bracketPieces (c :: rest) = (bracketPieces rest).modifyHead (c :: ·) := by
  have closed : closePieces (hyphenPieces [] 1 (c :: rest)) =
      (closePieces (hyphenPieces [] 1 rest)).modifyHead (c :: ·) := by
    rw [hyphenPieces_cons c 1 rest (by simp), closePieces_modifyHead]
    match rest with
    | [] => rfl
    | [d] =>
      by_cases hyphen : d = '-'
      · subst hyphen
        simp [hyphenPieces, closePieces]
      · rw [hyphenPieces_cons d 1 _ (by simp), hyphenPieces_cons d _ _ (by simp [hyphen])]
    | d :: e :: more =>
      have notHyphen : d ≠ '-' := fun hyphen => single e more (by rw [hyphen])
      rw [hyphenPieces_cons d 1 _ (by simp), hyphenPieces_cons d _ _ (by simp [notHyphen])]
  rw [bracketPieces, closed, joinPieces_modifyHead (closedPieces_led rest)]
  rfl

theorem bracketPieces_led (t : Text) : Led (bracketPieces t) := by
  fun_induction Pattern.listed t with
  | case1 low high rest ih =>
    rw [bracketPieces_range]
    split
    · exact ih
    · exact ⟨[low], _, rfl, fun empty => absurd empty (List.cons_ne_nil _ _)⟩
  | case2 c rest single ih =>
    rw [bracketPieces_single c rest single]
    exact led_modifyHead ih.ne_nil c
  | case3 => exact ⟨[], [], rfl, fun _ => rfl⟩

/-! ## What a bracket stands for -/

theorem pieceRanges_modifyHead {pieces : List Text} (led : Led pieces) (c : Char) :
    pieceRanges (pieces.modifyHead (c :: ·)) = ⟨c, c⟩ :: pieceRanges pieces := by
  obtain ⟨first, rest, rfl, alone⟩ := led
  cases rest with
  | nil => rfl
  | cons next more =>
    obtain ⟨d, front, rfl⟩ := List.exists_cons_of_ne_nil fun empty => by simpa using alone empty
    simp only [List.modifyHead_cons, pieceRanges, List.getLast?_cons_cons, singles, List.map_cons,
      List.cons_append]

theorem CharRange.holds_iff {range : CharRange} {c : Char} :
    range.holds c = true ↔ range.low ≤ c ∧ c ≤ range.high := by
  rw [CharRange.holds, Bool.and_eq_true, decide_eq_true_iff, decide_eq_true_iff]

theorem CharRange.single_holds_iff {c d : Char} :
    (⟨d, d⟩ : CharRange).holds c = true ↔ c = d := by
  rw [CharRange.holds_iff]
  exact ⟨fun within => Std.le_antisymm within.2 within.1, fun same => by simp [same]⟩

/-- A range between two pieces is listed beside the characters at its ends. -/
theorem pieceRanges_range {pieces : List Text} (led : Led pieces) (low high : Char) :
    pieceRanges ([low] :: pieces.modifyHead (high :: ·)) =
      ⟨low, low⟩ :: ⟨low, high⟩ :: ⟨high, high⟩ :: pieceRanges pieces := by
  rw [← pieceRanges_modifyHead led]
  obtain ⟨first, rest, rfl, -⟩ := led
  rfl

theorem pieceRanges_nil_cons {pieces : List Text} (nonempty : pieces ≠ []) :
    pieceRanges ([] :: pieces) = ⟨'-', '-'⟩ :: pieceRanges pieces := by
  obtain ⟨first, rest, rfl⟩ := List.exists_cons_of_ne_nil nonempty
  rfl

theorem any_pieceRanges_iff (t : Text) (c : Char) :
    (pieceRanges (bracketPieces t)).any (·.holds c) = true ↔ Pattern.Lists t c := by
  unfold Pattern.Lists
  fun_induction Pattern.listed t with
  | case1 low high rest ih =>
    rw [bracketPieces_range, List.exists_mem_cons_iff, ← ih]
    split
    · next empty =>
      have none : ¬ (low ≤ c ∧ c ≤ high) := fun within =>
        Std.not_lt.mpr (Std.le_trans within.1 within.2) empty
      exact (or_iff_right none).symm
    · next kept =>
      -- The ends of the range are also listed alone, which adds nothing to it.
      have ordered : low ≤ high := Std.not_lt.mp kept
      rw [pieceRanges_range (bracketPieces_led rest)]
      simp only [List.any_cons, Bool.or_eq_true, CharRange.holds_iff]
      constructor
      · rintro (⟨above, below⟩ | within | ⟨above, below⟩ | later)
        · exact .inl ⟨above, Std.le_trans below ordered⟩
        · exact .inl within
        · exact .inl ⟨Std.le_trans ordered above, below⟩
        · exact .inr later
      · rintro (within | later)
        · exact .inr (.inl within)
        · exact .inr (.inr (.inr later))
  | case2 d rest single ih =>
    rw [bracketPieces_single d rest single, pieceRanges_modifyHead (bracketPieces_led rest)]
    simp only [List.any_cons, Bool.or_eq_true, ih, CharRange.holds_iff, List.exists_mem_cons_iff]
  | case3 => simp [bracketPieces, hyphenPieces, closePieces, joinPieces, pieceRanges, singles]

theorem bracketPieces_skipEmpty (t : Text) :
    bracketPieces (Pattern.skipEmpty t) = bracketPieces t := by
  fun_induction Pattern.skipEmpty t with
  | case1 low high rest empty ih => rw [ih, bracketPieces_range, if_pos empty]
  | case2 => rfl
  | case3 => rfl

theorem not_lt_of_skipEmpty {t rest : Text} {low high : Char}
    (skipped : Pattern.skipEmpty t = low :: '-' :: high :: rest) : ¬ high < low := by
  fun_induction Pattern.skipEmpty t with
  | case1 low' high' rest' empty ih => exact ih skipped
  | case2 low' high' rest' kept =>
    simp only [List.cons.injEq, true_and] at skipped
    obtain ⟨rfl, rfl, -⟩ := skipped
    exact kept
  | case3 t other => exact absurd skipped (other low high rest)

/-- What is kept of a bracket, whether or not it starts with an exclamation mark. -/
def keptPieces (inner : Text) : List Text :=
  joinPieces (closePieces (hyphenPieces [] (if inner.head? = some '!' then 2 else 1) inner))

theorem keptPieces_mark (rest : Text) :
    keptPieces ('!' :: rest) = (bracketPieces rest).modifyHead ('!' :: ·) := by
  rw [keptPieces, List.head?_cons, if_pos rfl, hyphenPieces_cons '!' 2 rest (by simp),
    closePieces_modifyHead, joinPieces_modifyHead (closedPieces_led rest)]
  rfl

theorem keptPieces_plain {inner : Text} (plain : ∀ rest, inner ≠ '!' :: rest) :
    keptPieces inner = bracketPieces (Pattern.skipEmpty inner) := by
  have noMark : inner.head? ≠ some '!' := by
    intro mark
    obtain ⟨rest, marked⟩ := List.head?_eq_some_iff.mp mark
    exact plain rest marked
  rw [keptPieces, if_neg noMark, bracketPieces_skipEmpty]
  rfl

theorem bracketPart_holds_of_mark {inner first : Text} {rest : List Text}
    (marked : keptPieces inner = ('!' :: first) :: rest) (c : Char) :
    (bracketPart inner).holds c = true ↔
      ¬ (pieceRanges (first :: rest)).any (·.holds c) = true := by
  unfold keptPieces at marked
  simp only [bracketPart, marked]
  split
  · next empty =>
    simp only [Bool.and_eq_true, List.isEmpty_iff] at empty
    obtain ⟨rfl, rfl⟩ := empty
    simp [GlobPart.holds, pieceRanges, singles]
  · simp [GlobPart.holds]

/-- A mark in front of pieces turns what they list into its opposite. -/
theorem bracketPart_holds_of_negated {inner rest : Text}
    (marked : keptPieces inner = (bracketPieces rest).modifyHead ('!' :: ·)) (c : Char) :
    (bracketPart inner).holds c = true ↔ ¬ Pattern.Lists rest c := by
  obtain ⟨first, more, pieces⟩ := List.exists_cons_of_ne_nil (bracketPieces_led rest).ne_nil
  rw [pieces] at marked
  rw [bracketPart_holds_of_mark marked, ← pieces, any_pieceRanges_iff]

theorem bracketPart_holds_of_plain {inner : Text}
    (plain : ∀ first rest, keptPieces inner ≠ ('!' :: first) :: rest) (c : Char) :
    (bracketPart inner).holds c = (pieceRanges (keptPieces inner)).any (·.holds c) := by
  unfold keptPieces at plain ⊢
  rw [bracketPart]
  split
  · next first rest marked => exact absurd marked (plain first rest)
  · exact Bool.false_xor _

/-- Pieces start with the character that comes first after the empty ranges. -/
theorem skipEmpty_of_bracketPieces {t first : Text} {d : Char} {more : List Text}
    (pieces : bracketPieces (Pattern.skipEmpty t) = (d :: first) :: more) :
    ∃ rest, Pattern.skipEmpty t = d :: rest := by
  have kept := @not_lt_of_skipEmpty t
  generalize Pattern.skipEmpty t = u at pieces kept ⊢
  fun_cases Pattern.listed u with
  | case1 low high rest =>
    rw [bracketPieces_range, if_neg (kept rfl)] at pieces
    simp only [List.cons.injEq] at pieces
    exact ⟨'-' :: high :: rest, by rw [pieces.1.1]⟩
  | case2 c rest single =>
    obtain ⟨next, later, split⟩ := List.exists_cons_of_ne_nil (bracketPieces_led rest).ne_nil
    rw [bracketPieces_single c rest single, split] at pieces
    simp only [List.modifyHead_cons, List.cons.injEq] at pieces
    exact ⟨rest, by rw [pieces.1.1]⟩
  | case3 =>
    simp only [bracketPieces, hyphenPieces, closePieces, joinPieces] at pieces
    cases pieces

/-- The part made from a bracket stands for the characters that the bracket stands for. -/
theorem bracketPart_holds_iff (inner : Text) (c : Char) :
    (bracketPart inner).holds c = true ↔ Pattern.StandsFor inner c := by
  unfold Pattern.StandsFor
  split
  · next rest => exact bracketPart_holds_of_negated (keptPieces_mark rest) c
  · next plain =>
    have kept := keptPieces_plain fun rest marked => plain rest marked
    split
    · next low rest skipped =>
      have pieces := bracketPieces_range '!' low rest
      have led := bracketPieces_led rest
      rw [if_neg (not_lt_of_skipEmpty skipped), ← skipped, ← kept] at pieces
      rw [bracketPart_holds_of_mark pieces,
        pieceRanges_nil_cons (led_modifyHead led.ne_nil low).ne_nil,
        pieceRanges_modifyHead led, ← any_pieceRanges_iff rest]
      simp only [List.any_cons, Bool.or_eq_true, CharRange.single_holds_iff, not_or]
    · next rest single skipped =>
      rw [skipped, bracketPieces_single '!' rest fun high more => single high more] at kept
      exact bracketPart_holds_of_negated kept c
    · next noRange noMark =>
      have unmarked : ∀ first rest, keptPieces inner ≠ ('!' :: first) :: rest := by
        intro first more marked
        rw [kept] at marked
        obtain ⟨rest, skipped⟩ := skipEmpty_of_bracketPieces marked
        exact noMark rest skipped
      rw [bracketPart_holds_of_plain unmarked, kept, bracketPieces_skipEmpty, any_pieceRanges_iff]

end JavaSurvey
