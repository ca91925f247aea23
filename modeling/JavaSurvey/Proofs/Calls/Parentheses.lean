import JavaSurvey.Proofs.Calls.Overlap
import JavaSurvey.Proofs.Text.Slices

/-!
# Balanced parentheses

The search for a closing parenthesis counts how deep it is and remembers the quote of the literal it
is in. Here it is compared with the grammar of balanced texts, which knows neither.

1. `closingFrom_items`: items between parentheses are passed over, whatever follows them;
2. `closesFrom_of_closingFrom`: what was read when the search comes to an end is, for each
   parenthesis still open, items and a parenthesis that closes it;
3. `closing?_eq_some_iff`: so a parenthesis closes exactly at the end of a balanced text;
4. `closingParenthesis?_balanced`: there is at most one such end, and text before the parenthesis or
   after the end changes nothing about it.
-/

namespace JavaSurvey

/-! ## The grammar -/

/-- What may stand between two quotes: a backslash with the character after it, or any character but
a backslash and the quote. -/
inductive LiteralBody (quote : Char) : Text → Prop
  | nil : LiteralBody quote []
  | escape {rest : Text} (c : Char) (body : LiteralBody quote rest) :
      LiteralBody quote ('\\' :: c :: rest)
  | plain {c : Char} {rest : Text} (noEscape : c ≠ '\\') (noQuote : c ≠ quote)
      (body : LiteralBody quote rest) : LiteralBody quote (c :: rest)

/-- A literal between two double or two single quotes. -/
inductive Literal : Text → Prop
  | mk {quote : Char} {body : Text} (isQuote : quote = '"' ∨ quote = '\'')
      (inside : LiteralBody quote body) : Literal (quote :: (body ++ [quote]))

/-- Whether a character outside literals stands for itself. -/
def IsPlain (c : Char) : Prop :=
  c ≠ '(' ∧ c ≠ ')' ∧ c ≠ '"' ∧ c ≠ '\''

/-- A row of items: each is a balanced text, a literal or a plain character. -/
inductive Items : Text → Prop
  | nil : Items []
  | balanced {inner rest : Text} (inside : Items inner) (others : Items rest) :
      Items ('(' :: (inner ++ ')' :: rest))
  | literal {t rest : Text} (literal : Literal t) (others : Items rest) : Items (t ++ rest)
  | plain {c : Char} {rest : Text} (plain : IsPlain c) (others : Items rest) : Items (c :: rest)

/-- A text between a parenthesis and the one that closes it, both included. -/
inductive Balanced : Text → Prop
  | mk {inner : Text} (inside : Items inner) : Balanced ('(' :: (inner ++ [')']))

/-! ## What is balanced is passed over -/

theorem closingFrom_plain {c : Char} (plain : IsPlain c) (depth : Int) (rest : Text) :
    closingFrom depth none (c :: rest) = (closingFrom depth none rest).map (· + 1) := by
  obtain ⟨noOpening, noClosing, noDouble, noSingle⟩ := plain
  rw [closingFrom, if_neg (by simp [noDouble, noSingle]), if_neg noOpening, if_neg noClosing]

theorem closingFrom_opening (depth : Int) (rest : Text) :
    closingFrom depth none ('(' :: rest) = (closingFrom (depth + 1) none rest).map (· + 1) := by
  rw [closingFrom, if_neg (by decide), if_pos rfl]

theorem closingFrom_closing {depth : Int} (deeper : depth ≠ 1) (rest : Text) :
    closingFrom depth none (')' :: rest) = (closingFrom (depth - 1) none rest).map (· + 1) := by
  rw [closingFrom, if_neg (by decide), if_neg (by decide), if_pos rfl, if_neg deeper]

theorem closingFrom_quote {quote : Char} (isQuote : quote = '"' ∨ quote = '\'') (depth : Int)
    (rest : Text) :
    closingFrom depth none (quote :: rest) =
      (closingFrom depth (some quote) rest).map (· + 1) := by
  rw [closingFrom, if_pos isQuote]

/-- In a literal a character other than a backslash is passed over, and its quote ends it. -/
theorem closingFrom_inLiteral {c : Char} (noEscape : c ≠ '\\') (depth : Int) (quote : Char)
    (rest : Text) :
    closingFrom depth (some quote) (c :: rest) =
      (closingFrom depth (if c = quote then none else some quote) rest).map (· + 1) := by
  rw [closingFrom.eq_3 _ _ _ _ fun _ _ isEscape _ => noEscape isEscape]

/-- A literal is passed over from its inside. -/
theorem closingFrom_literalBody {quote : Char} (isQuote : quote = '"' ∨ quote = '\'') {body : Text}
    (inside : LiteralBody quote body) (depth : Int) (rest : Text) :
    closingFrom depth (some quote) (body ++ quote :: rest) =
      (closingFrom depth none rest).map (· + (body.length + 1)) := by
  induction inside with
  | nil =>
    have noEscape : quote ≠ '\\' := by
      rcases isQuote with rfl | rfl <;> decide
    rw [List.nil_append, closingFrom_inLiteral noEscape, if_pos rfl]
    rfl
  | escape c body ih =>
    rw [List.cons_append, List.cons_append, closingFrom, ih, Option.map_map]
    rfl
  | plain noEscape noQuote body ih =>
    rw [List.cons_append, closingFrom_inLiteral noEscape, if_neg noQuote, ih, Option.map_map]
    rfl

theorem closingFrom_literal {l : Text} (literal : Literal l) (depth : Int) (rest : Text) :
    closingFrom depth none (l ++ rest) = (closingFrom depth none rest).map (· + l.length) := by
  obtain ⟨isQuote, body⟩ := literal
  rw [List.cons_append, closingFrom_quote isQuote, List.append_assoc, List.singleton_append,
    closingFrom_literalBody isQuote body, Option.map_map, List.length_cons, List.length_append]
  rfl

/-- Items between parentheses are passed over, whatever follows them. -/
theorem closingFrom_items {t : Text} (items : Items t) {depth : Int} (inside : 0 < depth)
    (rest : Text) :
    closingFrom depth none (t ++ rest) = (closingFrom depth none rest).map (· + t.length) := by
  induction items generalizing depth rest with
  | nil => simp
  | @balanced inner others _ _ ihInner ihOthers =>
    -- The inner items are one deeper, so the parenthesis after them does not end the search.
    have deeper : depth + 1 ≠ 1 := by omega
    rw [List.cons_append, closingFrom_opening, List.append_assoc, ihInner (by omega),
      List.cons_append, closingFrom_closing deeper, Int.add_sub_cancel, ihOthers inside]
    simp only [Option.map_map, List.length_cons, List.length_append]
    congr 1
    funext i
    simp only [Function.comp_apply]
    omega
  | @literal t others literal _ ih =>
    rw [List.append_assoc, closingFrom_literal literal, ih inside, Option.map_map,
      List.length_append]
    simp only [Function.comp_def, Nat.add_assoc, Nat.add_comm others.length]
  | @plain c others plain _ ih =>
    rw [List.cons_append, closingFrom_plain plain, ih inside, Option.map_map]
    rfl

/-! ## What is read is balanced -/

/-- What closes a number of open parentheses: items and a parenthesis for each of them. -/
inductive Closes : Nat → Text → Prop
  | done : Closes 0 []
  | close {depth : Nat} {inner rest : Text} (inside : Items inner) (outer : Closes depth rest) :
      Closes (depth + 1) (inner ++ ')' :: rest)

namespace Closes

variable {depth : Nat} {t : Text}

theorem closing (closes : Closes depth t) : Closes (depth + 1) (')' :: t) :=
  .close .nil closes

theorem plain {c : Char} (plain : IsPlain c) (closes : Closes (depth + 1) t) :
    Closes (depth + 1) (c :: t) := by
  cases closes with
  | close inside outer => exact .close (.plain plain inside) outer

theorem literal {l : Text} (literal : Literal l) (closes : Closes (depth + 1) t) :
    Closes (depth + 1) (l ++ t) := by
  cases closes with
  | close inside outer =>
    rw [← List.append_assoc]
    exact .close (.literal literal inside) outer

/-- What closes one parenthesis more is, after that parenthesis, an item before the others. -/
theorem opening (closes : Closes (depth + 2) t) : Closes (depth + 1) ('(' :: t) := by
  cases closes with
  | close inside outer =>
    cases outer with
    | @close _ next rest insideNext outerNext =>
      have joined := Closes.close (.balanced inside insideNext) outerNext
      rwa [List.cons_append, List.append_assoc, List.cons_append] at joined

theorem balanced (closes : Closes 1 t) : Balanced ('(' :: t) := by
  cases closes with
  | close inside outer =>
    cases outer
    exact .mk inside

end Closes

/-- What closes a number of open parentheses from where a search stands, in the literal with the
given quote if there is one. -/
def ClosesFrom (depth : Nat) : Option Char → Text → Prop
  | none, t => Closes depth t
  | some quote, t => ∃ body rest, LiteralBody quote body ∧ Closes depth rest ∧
      t = body ++ quote :: rest

/-- What a search from inside parentheses has read when it comes to an end. -/
theorem closesFrom_of_closingFrom {depth : Int} {quote : Option Char} {t : Text} {i : Nat}
    (isQuote : ∀ q, quote = some q → q = '"' ∨ q = '\'') (inside : 0 < depth)
    (closed : closingFrom depth quote t = some i) :
    ClosesFrom depth.toNat quote (t.take (i + 1)) := by
  fun_induction closingFrom depth quote t generalizing i with
  | case1 => cases closed
  | case2 depth quote c rest ih =>
    obtain ⟨j, read, rfl⟩ := Option.map_eq_some_iff.mp closed
    obtain ⟨body, outer, inLiteral, closes, parts⟩ := ih isQuote inside read
    exact ⟨'\\' :: c :: body, outer, .escape c inLiteral, closes, by simp [parts]⟩
  | case3 depth quote c rest notEscape ih =>
    obtain ⟨j, read, rfl⟩ := Option.map_eq_some_iff.mp closed
    -- Something is read after the character, so a backslash would have been an escape.
    have noEscape : c ≠ '\\' := by
      rintro rfl
      cases rest with
      | nil => cases read
      | cons d rest => exact notEscape d rest rfl rfl
    by_cases ends : c = quote
    · have closes := ih (by simp [ends]) inside read
      rw [if_pos ends] at closes
      exact ⟨[], rest.take (j + 1), .nil, closes, by rw [ends]; rfl⟩
    · have closes := ih (by simpa [ends] using isQuote) inside read
      rw [if_neg ends] at closes
      obtain ⟨body, outer, inLiteral, closes, parts⟩ := closes
      exact ⟨c :: body, outer, .plain noEscape ends inLiteral, closes, by simp [parts]⟩
  | case4 depth c rest quotes ih =>
    obtain ⟨j, read, rfl⟩ := Option.map_eq_some_iff.mp closed
    obtain ⟨body, outer, inLiteral, closes, parts⟩ := ih (by simpa using quotes) inside read
    obtain ⟨n, rfl⟩ := Int.eq_succ_of_zero_lt inside
    rw [List.take_succ_cons, parts]
    have joined := Closes.literal (.mk quotes inLiteral) closes
    rwa [List.cons_append, List.append_assoc, List.singleton_append] at joined
  | case5 depth rest noQuote ih =>
    obtain ⟨j, read, rfl⟩ := Option.map_eq_some_iff.mp closed
    obtain ⟨n, rfl⟩ := Int.eq_succ_of_zero_lt inside
    exact Closes.opening (ih (by simp) (by omega) read)
  | case6 rest noQuote noOpening =>
    cases closed
    exact Closes.done.closing
  | case7 depth rest deeper noQuote noOpening ih =>
    obtain ⟨j, read, rfl⟩ := Option.map_eq_some_iff.mp closed
    have closes := ih (by simp) (by omega) read
    obtain ⟨n, rfl⟩ := Int.eq_succ_of_zero_lt inside
    rw [Int.add_sub_cancel] at closes
    exact closes.closing
  | case8 depth c rest noQuote noOpening noClosing ih =>
    obtain ⟨j, read, rfl⟩ := Option.map_eq_some_iff.mp closed
    obtain ⟨n, rfl⟩ := Int.eq_succ_of_zero_lt inside
    obtain ⟨noDouble, noSingle⟩ := not_or.mp noQuote
    have plain : IsPlain c := ⟨noOpening, noClosing, noDouble, noSingle⟩
    exact Closes.plain plain (ih (by simp) inside read)

/-! ## The search and the grammar -/

/-- A balanced text is read up to its end, whatever follows it. -/
theorem Balanced.closing? {t : Text} (balanced : Balanced t) (rest : Text) :
    closing? (t ++ rest) = some (t.length - 1) := by
  obtain ⟨inside⟩ := balanced
  rw [JavaSurvey.closing?, List.cons_append, closingFrom_opening, List.append_assoc,
    closingFrom_items inside (by decide), List.singleton_append, closingFrom]
  simp

/-- A parenthesis at the start of a text closes exactly at the end of a balanced text. -/
theorem closing?_eq_some_iff {t : Text} (opens : t.head? = some '(') {j : Nat} :
    closing? t = some j ↔ j < t.length ∧ Balanced (t.take (j + 1)) := by
  constructor
  · intro closed
    refine ⟨(closingFrom_append closed []).1, ?_⟩
    obtain ⟨rest, rfl⟩ := List.head?_eq_some_iff.mp opens
    rw [closing?, closingFrom_opening] at closed
    obtain ⟨k, read, rfl⟩ := Option.map_eq_some_iff.mp closed
    have closes : Closes 1 (rest.take (k + 1)) :=
      closesFrom_of_closingFrom (by simp) (by decide) read
    exact closes.balanced
  · rintro ⟨bounded, balanced⟩
    have closed := balanced.closing? (t.drop (j + 1))
    rw [List.take_append_drop, List.length_take, Nat.min_eq_left bounded] at closed
    exact closed

/-- The text from one offset to another, both included, is balanced. -/
structure BalancedBetween (t : Text) (first last : Nat) : Prop where
  ordered : first ≤ last
  bounded : last < t.length
  balanced : Balanced (Text.slice t first (last + 1))

theorem closingParenthesis?_eq_some_iff {t : Text} {first : Nat} (opens : t[first]? = some '(')
    {last : Nat} : closingParenthesis? t first = some last ↔ BalancedBetween t first last := by
  have head : (t.drop first).head? = some '(' := by rw [List.head?_drop, opens]
  have inside (ordered : first ≤ last) (bounded : last < t.length) :
      Text.slice t first (last + 1) = (t.drop first).take (last - first + 1) := by
    rw [Text.slice_eq (by omega) (by omega) (by omega)]
    congr 1
    omega
  rw [closingParenthesis?, Option.map_eq_some_iff]
  constructor
  · rintro ⟨j, closed, rfl⟩
    obtain ⟨bounded, balanced⟩ := (closing?_eq_some_iff head).mp closed
    rw [List.length_drop] at bounded
    refine ⟨Nat.le_add_right first j, by omega, ?_⟩
    rwa [inside (by omega) (by omega), Nat.add_sub_cancel_left]
  · rintro ⟨ordered, bounded, balanced⟩
    rw [inside ordered bounded] at balanced
    refine ⟨last - first, (closing?_eq_some_iff head).mpr ⟨?_, balanced⟩, by omega⟩
    rw [List.length_drop]
    omega

/-- The search from a parenthesis finds the end of the balanced text that starts there. There is at
most one such end, and none is found only if there is none. Text after the end does not change it,
and text before the parenthesis moves it along. -/
theorem closingParenthesis?_balanced {t : Text} {first : Nat} (opens : t[first]? = some '(') :
    (∀ last, closingParenthesis? t first = some last ↔ BalancedBetween t first last) ∧
    (∀ last last', BalancedBetween t first last → BalancedBetween t first last' → last = last') ∧
    (closingParenthesis? t first = none ↔ ∀ last, ¬ BalancedBetween t first last) ∧
    (∀ last, closingParenthesis? t first = some last →
      ∀ more, closingParenthesis? (t ++ more) first = some last) ∧
    ∀ before, closingParenthesis? (before ++ t) (before.length + first) =
      (closingParenthesis? t first).map (before.length + ·) := by
  have exactly (last : Nat) :
      closingParenthesis? t first = some last ↔ BalancedBetween t first last :=
    closingParenthesis?_eq_some_iff opens
  refine ⟨exactly, fun last last' here there => ?_, ?_, fun last closed more => ?_,
    fun before => ?_⟩
  · exact Option.some.inj (((exactly last).mpr here).symm.trans ((exactly last').mpr there))
  · simp only [← exactly, Option.eq_none_iff_forall_ne_some, ne_eq]
  · obtain ⟨bounded, -⟩ := List.getElem?_eq_some_iff.mp opens
    obtain ⟨j, read, rfl⟩ := Option.map_eq_some_iff.mp closed
    rw [closingParenthesis?, List.drop_append_of_le_length (Nat.le_of_lt bounded), closing?,
      (closingFrom_append read more).2, Option.map_some]
  · rw [closingParenthesis?, closingParenthesis?, List.drop_length_add_append, Option.map_map]
    simp only [Function.comp_def, Nat.add_assoc]

/-- A call with parentheses and an escaped quote in literals, and one inside another. -/
def literalsCall : Text := "f(\")\", g('\\''), x))".toList

theorem closingParenthesis?_literalsCall :
    literalsCall[1]? = some '(' ∧ closingParenthesis? literalsCall 1 = some 17 ∧
      BalancedBetween literalsCall 1 17 ∧
      ∀ last, BalancedBetween literalsCall 1 last → last = 17 := by
  have opens : literalsCall[1]? = some '(' := by decide
  have closed : closingParenthesis? literalsCall 1 = some 17 := by decide
  obtain ⟨exactly, unique, -⟩ := closingParenthesis?_balanced opens
  have balanced := (exactly 17).mp closed
  exact ⟨opens, closed, balanced, fun last other => unique last 17 other balanced⟩

end JavaSurvey
