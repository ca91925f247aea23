import JavaSurvey.CallSite.Arguments
import JavaSurvey.Proofs.Text.Blanks
import Mathlib.Data.List.Induction

/-!
# Numbers of arguments

Arguments are counted by their commas. A comma counts where no bracket is open, and each of the four
kinds of brackets is followed by a counter of its own that never goes below zero.

1. `outerCommas_append`: the count of a text is put together from those of its parts, with the
   brackets that the first part leaves open;
2. `countArguments_eq`: trimming takes nothing away that counts;
3. `openAfter_eq_depth`: where no bracket is closed that was not opened, a counter is the difference
   of the two numbers;
4. `countArguments_joined`: so arguments that are joined by commas are counted one by one.
-/

namespace JavaSurvey

/-! ## Parts of a text -/

namespace Brackets

/-- The open brackets after a text. -/
def readAll (b : Brackets) (t : Text) : Brackets :=
  t.foldl read b

theorem readAll_cons (b : Brackets) (c : Char) (t : Text) :
    b.readAll (c :: t) = (b.read c).readAll t :=
  rfl

theorem areClosed_iff {b : Brackets} : b.areClosed = true ↔ b = {} := by
  cases b
  simp [areClosed, and_assoc]

end Brackets

theorem outerCommas_append (b : Brackets) (x y : Text) :
    outerCommas b (x ++ y) = outerCommas b x + outerCommas (b.readAll x) y := by
  induction x generalizing b with
  | nil => simp [outerCommas, Brackets.readAll]
  | cons c x ih =>
    rw [List.cons_append, outerCommas, outerCommas, Brackets.readAll_cons]
    split
    · next outer =>
      obtain ⟨rfl, -⟩ := outer
      -- The comma that counts leaves the brackets as they are.
      have same : b.read ',' = b := rfl
      rw [ih, same, Nat.add_right_comm]
    · exact ih _

/-- No comma counts exactly if a bracket is open before each of them. -/
theorem outerCommas_eq_zero_iff {b : Brackets} {t : Text} :
    outerCommas b t = 0 ↔ ∀ front, front ++ [','] <+: t → b.readAll front ≠ {} := by
  induction t generalizing b with
  | nil => simp [outerCommas]
  | cons c t ih =>
    constructor
    · intro none front isPrefix
      rw [outerCommas] at none
      split at none
      · cases none
      · next notOuter =>
        cases front with
        | nil =>
          obtain ⟨rfl, -⟩ := List.cons_prefix_cons.mp isPrefix
          intro closed
          exact notOuter ⟨rfl, Brackets.areClosed_iff.mpr closed⟩
        | cons d front =>
          obtain ⟨rfl, later⟩ := List.cons_prefix_cons.mp isPrefix
          exact ih.mp none front later
    · intro opened
      rw [outerCommas, if_neg]
      · refine ih.mpr fun front isPrefix => ?_
        exact opened (c :: front) (List.cons_prefix_cons.mpr ⟨rfl, isPrefix⟩)
      · rintro ⟨rfl, closed⟩
        have here : [] ++ [','] <+: ',' :: t := List.cons_prefix_cons.mpr ⟨rfl, List.nil_prefix⟩
        exact opened [] here (Brackets.areClosed_iff.mp closed)

/-! ## Characters without effect -/

/-- The characters that counting looks at. -/
def countedChars : List Char :=
  [',', '(', ')', '<', '>', '[', ']', '\x7b', '\x7d']

namespace Brackets

/-- A text has no effect on the count: none of its commas counts, and the brackets after it are
those before it. -/
structure Ignores (b : Brackets) (t : Text) : Prop where
  noComma : outerCommas b t = 0
  unchanged : b.readAll t = b

theorem Ignores.outerCommas_append {b : Brackets} {t : Text} (ignores : b.Ignores t) (rest : Text) :
    outerCommas b (t ++ rest) = outerCommas b rest := by
  rw [JavaSurvey.outerCommas_append, ignores.noComma, ignores.unchanged, Nat.zero_add]

theorem read_of_not_counted {c : Char} (ignored : c ∉ countedChars) (b : Brackets) :
    b.read c = b := by
  unfold read
  split
  all_goals first | rfl | exact absurd (by decide) ignored

theorem ignores_of_not_counted {t : Text} (ignored : ∀ c ∈ t, c ∉ countedChars) (b : Brackets) :
    b.Ignores t := by
  induction t with
  | nil => exact ⟨rfl, rfl⟩
  | cons c t ih =>
    have first : c ∉ countedChars := ignored c List.mem_cons_self
    have same := read_of_not_counted first b
    obtain ⟨noComma, unchanged⟩ := ih fun d member => ignored d (List.mem_cons_of_mem _ member)
    constructor
    · rw [outerCommas, if_neg, same, noComma]
      rintro ⟨rfl, -⟩
      exact first (by decide)
    · rw [readAll_cons, same, unchanged]

end Brackets

theorem not_counted_of_isBlank {c : Char} (blank : Text.isBlank c = true) : c ∉ countedChars := by
  have solid : countedChars.all (!Text.isBlank ·) = true := by decide
  intro counted
  have notBlank := List.all_eq_true.mp solid c counted
  rw [blank] at notBlank
  cases notBlank

/-- A text that is not blank has one argument more than commas that count. -/
theorem countArguments_eq {t : Text} (solid : ∃ c ∈ t, Text.isBlank c = false) :
    countArguments t = outerCommas {} t + 1 := by
  have nonempty : Text.trim t ≠ [] := by
    intro empty
    obtain ⟨c, member, notBlank⟩ := solid
    rw [Text.trim_eq_nil_iff.mp empty c member] at notBlank
    cases notBlank
  have trimmed : outerCommas {} t = outerCommas {} (Text.trim t) := by
    obtain ⟨front, back, parts, blankFront, blankBack⟩ := Text.exists_trim_parts t
    have ignores {blanks : Text} (blank : ∀ c ∈ blanks, Text.isBlank c = true) (b : Brackets) :
        b.Ignores blanks :=
      Brackets.ignores_of_not_counted (fun c member => not_counted_of_isBlank (blank c member)) b
    generalize Text.trim t = inner at parts
    rw [parts, List.append_assoc, (ignores blankFront _).outerCommas_append, outerCommas_append,
      (ignores blankBack _).noComma, Nat.add_zero]
  rw [trimmed]
  exact if_neg (by simpa using nonempty)

/-! ## One kind of brackets -/

/-- The kinds of brackets, each by the character that opens it and the one that closes it. -/
def bracketKinds : List (Char × Char) :=
  [('(', ')'), ('<', '>'), ('[', ']'), ('\x7b', '\x7d')]

/-- How many more brackets of a kind are opened than closed in a text. -/
def depth (kind : Char × Char) (t : Text) : Int :=
  t.count kind.1 - t.count kind.2

/-- How many brackets of a kind are open after a text, if `n` are before it. -/
def openAfter (kind : Char × Char) (n : Nat) (t : Text) : Nat :=
  t.foldl (fun n c => if c = kind.1 then n + 1 else if c = kind.2 then n - 1 else n) n

/-- Each kind has a counter of its own. -/
theorem Brackets.readAll_eq (b : Brackets) (t : Text) :
    b.readAll t = ⟨openAfter ('(', ')') b.round t, openAfter ('<', '>') b.angle t,
      openAfter ('[', ']') b.square t, openAfter ('\x7b', '\x7d') b.curly t⟩ := by
  induction t generalizing b with
  | nil => rfl
  | cons c t ih =>
    rw [readAll_cons, ih]
    unfold read openAfter
    split
    case h_9 noRound noAngle noSquare noCurly noRoundEnd noAngleEnd noSquareEnd noCurlyEnd =>
      simp only [List.foldl_cons, if_neg noRound, if_neg noAngle, if_neg noSquare, if_neg noCurly,
        if_neg noRoundEnd, if_neg noAngleEnd, if_neg noSquareEnd, if_neg noCurlyEnd]
    all_goals rfl

theorem Brackets.readAll_eq_closed_iff {t : Text} :
    ({} : Brackets).readAll t = {} ↔ ∀ kind ∈ bracketKinds, openAfter kind 0 t = 0 := by
  simp [readAll_eq, bracketKinds]

/-- Where no bracket of a kind is closed that was not opened before, as many are open as were opened
and not closed. -/
theorem openAfter_eq_depth {kind : Char × Char} (distinct : kind.1 ≠ kind.2) {t : Text}
    (nonneg : ∀ front, front <+: t → 0 ≤ depth kind front) :
    (openAfter kind 0 t : Int) = depth kind t := by
  induction t using List.reverseRecOn with
  | nil => rfl
  | append_singleton front c ih =>
    have before := ih fun piece isPrefix => nonneg piece (isPrefix.trans (List.prefix_append _ _))
    have here := nonneg (front ++ [c]) List.prefix_rfl
    simp only [depth, List.count_append, List.count_singleton] at before here ⊢
    simp only [openAfter, List.foldl_append, List.foldl_cons, List.foldl_nil] at before ⊢
    by_cases opens : c = kind.1
    · subst opens
      simp [distinct] at here ⊢
      omega
    · by_cases closes : c = kind.2
      · subst closes
        simp [opens] at here ⊢
        omega
      · simp [opens, closes] at here ⊢
        omega

/-! ## Joined arguments -/

/-- A text that is one argument: it is not blank, each kind of brackets is closed only after it was
opened and as often, and every comma stands in a bracket. -/
structure IsArgument (t : Text) : Prop where
  solid : ∃ c ∈ t, Text.isBlank c = false
  nonneg : ∀ kind ∈ bracketKinds, ∀ front, front <+: t → 0 ≤ depth kind front
  closed : ∀ kind ∈ bracketKinds, depth kind t = 0
  commas : ∀ front, front ++ [','] <+: t → ∃ kind ∈ bracketKinds, depth kind front ≠ 0

instance (t : Text) : Decidable (IsArgument t) :=
  decidable_of_iff (t.any (!Text.isBlank ·) = true ∧
      (bracketKinds.all fun kind => t.inits.all (0 ≤ depth kind ·)) = true ∧
      bracketKinds.all (depth · t = 0) = true ∧
      (t.inits.all fun front => front ++ [','] <+: t → bracketKinds.any (depth · front ≠ 0)) =
        true) <| by
    simp only [List.any_eq_true, List.all_eq_true, List.mem_inits, Bool.not_eq_true',
      decide_eq_true_eq]
    constructor
    · rintro ⟨solid, nonneg, closed, commas⟩
      refine ⟨solid, nonneg, closed, fun front isPrefix => ?_⟩
      exact commas front ((List.prefix_append _ _).trans isPrefix) isPrefix
    · rintro ⟨solid, nonneg, closed, commas⟩
      exact ⟨solid, nonneg, closed, fun front _ isPrefix => commas front isPrefix⟩

namespace IsArgument

variable {t : Text}

/-- The counters of an argument are its depths, before every character and at its end. -/
theorem openAfter_eq (argument : IsArgument t) {kind : Char × Char} (listed : kind ∈ bracketKinds)
    {front : Text} (isPrefix : front <+: t) :
    (openAfter kind 0 front : Int) = depth kind front := by
  have distinct : ∀ kind ∈ bracketKinds, kind.1 ≠ kind.2 := by decide
  refine openAfter_eq_depth (distinct kind listed) fun piece isPiece => ?_
  exact argument.nonneg kind listed piece (isPiece.trans isPrefix)

theorem readAll_eq (argument : IsArgument t) : ({} : Brackets).readAll t = {} := by
  refine Brackets.readAll_eq_closed_iff.mpr fun kind listed => ?_
  have counter := argument.openAfter_eq listed List.prefix_rfl
  rw [argument.closed kind listed] at counter
  exact Int.natCast_eq_zero.mp counter

theorem countArguments_eq_one (argument : IsArgument t) : countArguments t = 1 := by
  rw [countArguments_eq argument.solid, outerCommas_eq_zero_iff.mpr]
  intro front isPrefix closed
  obtain ⟨kind, listed, opened⟩ := argument.commas front isPrefix
  apply opened
  rw [← argument.openAfter_eq listed ((List.prefix_append _ _).trans isPrefix),
    Brackets.readAll_eq_closed_iff.mp closed kind listed]
  rfl

end IsArgument

/-- After a text that leaves no bracket open, a comma parts what is counted. -/
theorem countArguments_comma {a b : Text} (solidLeft : ∃ c ∈ a, Text.isBlank c = false)
    (solidRight : ∃ c ∈ b, Text.isBlank c = false) (closed : ({} : Brackets).readAll a = {}) :
    countArguments (a ++ ',' :: b) = countArguments a + countArguments b := by
  have solid : ∃ c ∈ a ++ ',' :: b, Text.isBlank c = false :=
    ⟨',', List.mem_append_right _ List.mem_cons_self, by decide⟩
  have comma : outerCommas {} (',' :: b) = outerCommas {} b + 1 := by
    rw [outerCommas, if_pos ⟨rfl, rfl⟩]
  rw [countArguments_eq solid, countArguments_eq solidLeft, countArguments_eq solidRight,
    outerCommas_append, closed, comma]
  omega

/-- Joined texts are not blank if the first of them is not. -/
theorem solid_intercalate {a : Text} (solid : ∃ c ∈ a, Text.isBlank c = false)
    (others : List Text) :
    ∃ c ∈ [','].intercalate (a :: others), Text.isBlank c = false := by
  obtain ⟨c, member, notBlank⟩ := solid
  refine ⟨c, ?_, notBlank⟩
  cases others with
  | nil => rwa [List.intercalate_singleton]
  | cons b others =>
    rw [List.intercalate_cons_cons]
    exact List.mem_append_left _ (List.mem_append_left _ member)

/-- Arguments that are joined by commas are counted one by one. More generally, the count of two
texts that are not blank and joined by a comma is the sum of theirs, whenever the first one leaves
no bracket open, even if it closes brackets that it does not open. -/
theorem countArguments_joined :
    (∀ arguments : List Text, arguments ≠ [] → (∀ a ∈ arguments, IsArgument a) →
      countArguments ([','].intercalate arguments) = arguments.length) ∧
    ∀ a b : Text, (∃ c ∈ a, Text.isBlank c = false) → (∃ c ∈ b, Text.isBlank c = false) →
      ({} : Brackets).readAll a = {} →
      countArguments (a ++ ',' :: b) = countArguments a + countArguments b := by
  refine ⟨fun arguments nonempty each => ?_, fun a b => countArguments_comma⟩
  induction arguments with
  | nil => exact absurd rfl nonempty
  | cons a others ih =>
    have argument := each a List.mem_cons_self
    cases others with
    | nil => rw [List.intercalate_singleton, argument.countArguments_eq_one, List.length_singleton]
    | cons b others =>
      have rest := ih (List.cons_ne_nil b others) fun x later =>
        each x (List.mem_cons_of_mem _ later)
      have solid : ∃ c ∈ [','].intercalate (b :: others), Text.isBlank c = false :=
        solid_intercalate (each b (by simp)).solid others
      have joined : [','].intercalate (a :: b :: others) =
          a ++ ',' :: [','].intercalate (b :: others) := by
        rw [List.intercalate_cons_cons, List.append_assoc, List.singleton_append]
      have length : (a :: b :: others).length = 1 + (b :: others).length := Nat.add_comm _ _
      rw [joined, countArguments_comma argument.solid solid argument.readAll_eq, rest,
        argument.countArguments_eq_one, length]

/-- Arguments with commas in each kind of brackets, one kind inside another. -/
def nestedArguments : List Text :=
  [" m<k, v>".toList, "g(x[1, 2], y)".toList, " new int[]\x7b1, f(2)\x7d ".toList]

/-- A text that closes brackets it does not open, and opens none. -/
def strayClosers : Text := "x > y)".toList

theorem countArguments_joined_nested :
    (∀ a ∈ nestedArguments, IsArgument a) ∧
      countArguments ([','].intercalate nestedArguments) = 3 ∧
      ({} : Brackets).readAll strayClosers = {} ∧
      countArguments (strayClosers ++ ',' :: "z, (".toList) =
        countArguments strayClosers + countArguments "z, (".toList := by
  have each : ∀ a ∈ nestedArguments, IsArgument a := by decide
  obtain ⟨joined, comma⟩ := countArguments_joined
  refine ⟨each, joined nestedArguments (by decide) each, by decide, ?_⟩
  exact comma _ _ ⟨'x', by decide, by decide⟩ ⟨'z', by decide, by decide⟩ (by decide)

end JavaSurvey
