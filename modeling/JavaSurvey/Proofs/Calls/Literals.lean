import JavaSurvey.Proofs.Calls.Arguments
import JavaSurvey.Proofs.Calls.Matching
import JavaSurvey.Proofs.Calls.Parentheses

/-!
# Literals among arguments

The search for the parenthesis that closes a call passes over literals. The count of its arguments
does not: a comma between quotes counts, and so does a bracket.

1. `closingFrom_code`: the search comes to a literal outside of all others, at a depth that does not
   depend on the literal;
2. `CallPieces.withArguments`: other arguments that close make a call with the same name;
3. `Brackets.eq_of_closers`: different numbers of open brackets are told apart by what may follow;
4. `scanCalls_literal_iff`: so other contents of a literal keep the count in every call exactly if
   the count ignores the contents it has.
-/

namespace JavaSurvey

/-! ## Places outside literals -/

/-- The literal with the given quotes and contents. -/
def quoted (quote : Char) (body : Text) : Text :=
  quote :: (body ++ [quote])

/-- A text that ends outside of literals: a row of whole literals and characters that are no
quotes. -/
inductive Code : Text → Prop
  | nil : Code []
  | literal {l rest : Text} (literal : Literal l) (others : Code rest) : Code (l ++ rest)
  | char {c : Char} {rest : Text} (noDouble : c ≠ '"') (noSingle : c ≠ '\'') (others : Code rest) :
      Code (c :: rest)

/-- A search that does not end in a text which ends outside of literals goes on after it at a depth
of its own. -/
theorem closingFrom_code {front : Text} (code : Code front) {depth : Int} (inside : 0 < depth)
    {rest : Text} {i : Nat} (closed : closingFrom depth none (front ++ rest) = some i)
    (after : front.length ≤ i) :
    ∃ n : Nat, ∀ other, closingFrom depth none (front ++ other) =
      (closingFrom (n + 1) none other).map (· + front.length) := by
  induction code generalizing depth i with
  | nil =>
    obtain ⟨n, rfl⟩ := Int.eq_succ_of_zero_lt inside
    exact ⟨n, fun other => by simp⟩
  | @literal l more literal _ ih =>
    rw [List.append_assoc, closingFrom_literal literal] at closed
    obtain ⟨j, later, rfl⟩ := Option.map_eq_some_iff.mp closed
    rw [List.length_append] at after
    obtain ⟨n, goesOn⟩ := ih inside later (by omega)
    refine ⟨n, fun other => ?_⟩
    rw [List.append_assoc, closingFrom_literal literal, goesOn, Option.map_map, List.length_append]
    simp only [Function.comp_def, Nat.add_assoc, Nat.add_comm more.length]
  | @char c more noDouble noSingle _ ih =>
    -- One character changes the depth to `next`, whatever comes after it.
    have step {next : Int} (positive : 0 < next)
        (reads : ∀ other, closingFrom depth none (c :: other) =
          (closingFrom next none other).map (· + 1)) :
        ∃ n : Nat, ∀ other, closingFrom depth none (c :: more ++ other) =
          (closingFrom (n + 1) none other).map (· + (c :: more).length) := by
      rw [List.cons_append, reads] at closed
      obtain ⟨j, later, rfl⟩ := Option.map_eq_some_iff.mp closed
      obtain ⟨n, goesOn⟩ := ih positive later (Nat.le_of_succ_le_succ after)
      refine ⟨n, fun other => ?_⟩
      rw [List.cons_append, reads, goesOn, Option.map_map]
      rfl
    by_cases opening : c = '('
    · subst opening
      exact step (by omega) fun other => closingFrom_opening depth other
    · by_cases closing : c = ')'
      · subst closing
        have deeper : depth ≠ 1 := by
          rintro rfl
          rw [List.cons_append, closingFrom, if_neg (by decide), if_neg (by decide), if_pos rfl,
            if_pos rfl] at closed
          cases closed
          cases after
        exact step (by omega) fun other => closingFrom_closing deeper other
      · exact step inside fun other =>
          closingFrom_plain ⟨opening, closing, noDouble, noSingle⟩ depth other

/-- A literal after such a text is passed over with it. -/
theorem closingFrom_quoted {front : Text} {depth : Int} {n : Nat}
    (goesOn : ∀ other, closingFrom depth none (front ++ other) =
      (closingFrom (n + 1) none other).map (· + front.length))
    {quote : Char} {body : Text} (literal : Literal (quoted quote body)) (rest : Text) :
    closingFrom depth none (front ++ (quoted quote body ++ rest)) =
      (closingFrom (n + 1) none rest).map (· + (front ++ quoted quote body).length) := by
  rw [goesOn, closingFrom_literal literal, Option.map_map, List.length_append]
  simp only [Function.comp_def, Nat.add_assoc, Nat.add_comm front.length]

/-! ## Calls with other arguments -/

namespace CallPieces

variable {before name blanks arguments after : Text}

theorem closed_iff : closing? ('(' :: (arguments ++ after)) = some (arguments.length + 1) ↔
    closingFrom 1 none (arguments ++ after) = some arguments.length := by
  rw [closing?, closingFrom_opening, Option.map_eq_some_iff]
  constructor
  · rintro ⟨j, closed, same⟩
    rw [← Nat.succ.inj same]
    exact closed
  · intro closed
    exact ⟨_, closed, rfl⟩

/-- Other arguments that close make a call as well. -/
theorem withArguments (pieces : CallPieces before name blanks arguments after) {others : Text}
    (closed : closingFrom 1 none (others ++ after) = some others.length) :
    CallPieces before name blanks others after :=
  { pieces with closes := closed_iff.mpr closed }

/-- The site of a call is found. -/
theorem mem_scanCalls (pieces : CallPieces before name blanks arguments after) (lines : LineIndex)
    (base : Int) : ⟨String.ofList name, countArguments arguments, base + before.length,
      lines.lineOf (base + before.length)⟩ ∈
      scanCalls lines base (text before name blanks arguments after) :=
  mem_scanFrom_iff.mpr ⟨before, _, _, _, rfl, pieces.apart, pieces.callAt?, rfl⟩

/-- It is the only one at its offset. -/
theorem arguments_eq (pieces : CallPieces before name blanks arguments after) {lines : LineIndex}
    {base : Int} {s : CallSite}
    (found : s ∈ scanCalls lines base (text before name blanks arguments after))
    (here : s.offset = base + before.length) : s.arguments = countArguments arguments := by
  have sorted := scanFrom_sorted lines base false (text before name blanks arguments after)
  have distinct := sorted.imp fun less => Int.ne_of_lt less
  rw [List.inj_on_of_nodup_map distinct found (pieces.mem_scanCalls lines base) here]

end CallPieces

/-! ## Telling brackets apart -/

theorem openAfter_append (kind : Char × Char) (n : Nat) (x y : Text) :
    openAfter kind n (x ++ y) = openAfter kind (openAfter kind n x) y :=
  List.foldl_append

theorem openAfter_replicate (kind : Char × Char) (n k : Nat) (c : Char) :
    openAfter kind n (List.replicate k c) =
      if c = kind.1 then n + k else if c = kind.2 then n - k else n := by
  induction k generalizing n with
  | zero => simp [openAfter]
  | succ k ih =>
    have step : openAfter kind n (List.replicate (k + 1) c) =
        openAfter kind (if c = kind.1 then n + 1 else if c = kind.2 then n - 1 else n)
          (List.replicate k c) := rfl
    rw [step, ih]
    split
    · omega
    · split
      · omega
      · rfl

namespace Brackets

/-- A closing bracket for each open one. -/
def closers (b : Brackets) : Text :=
  List.replicate b.round ')' ++ (List.replicate b.angle '>' ++
    (List.replicate b.square ']' ++ List.replicate b.curly '\x7d'))

theorem mem_closers {b : Brackets} {c : Char} (member : c ∈ b.closers) :
    c ∈ [')', '>', ']', '\x7d'] := by
  simp only [closers, List.mem_append] at member
  rcases member with round | angle | square | curly
  · simp [List.eq_of_mem_replicate round]
  · simp [List.eq_of_mem_replicate angle]
  · simp [List.eq_of_mem_replicate square]
  · simp [List.eq_of_mem_replicate curly]

/-- The closers of some brackets close others exactly if no more of them are open, of each kind. -/
theorem readAll_closers_iff {b x : Brackets} :
    b.readAll x.closers = {} ↔
      b.round ≤ x.round ∧ b.angle ≤ x.angle ∧ b.square ≤ x.square ∧ b.curly ≤ x.curly := by
  simp [readAll_eq, closers, openAfter_append, openAfter_replicate, Nat.sub_eq_zero_iff_le]

/-- What is open is known from what closes it. -/
theorem eq_of_closers {b b' : Brackets}
    (same : ∀ x : Brackets, b.readAll x.closers = {} ↔ b'.readAll x.closers = {}) : b = b' := by
  have self (x : Brackets) : x.readAll x.closers = {} :=
    readAll_closers_iff.mpr ⟨Nat.le_refl _, Nat.le_refl _, Nat.le_refl _, Nat.le_refl _⟩
  obtain ⟨round, angle, square, curly⟩ := readAll_closers_iff.mp ((same b').mpr (self b'))
  obtain ⟨round', angle', square', curly'⟩ := readAll_closers_iff.mp ((same b).mp (self b))
  cases b
  cases b'
  rw [mk.injEq]
  exact ⟨Nat.le_antisymm round round', Nat.le_antisymm angle angle',
    Nat.le_antisymm square square', Nat.le_antisymm curly curly'⟩

end Brackets

/-! ## Counting in literals -/

theorem outerCommas_of_no_comma {t : Text} (noComma : ',' ∉ t) (b : Brackets) :
    outerCommas b t = 0 := by
  refine outerCommas_eq_zero_iff.mpr fun front isPrefix => ?_
  exact absurd (isPrefix.mem (List.mem_append_right _ List.mem_cons_self)) noComma

/-- Quotes have no effect on the count, but what is between them has. -/
theorem outerCommas_quoted {quote : Char} (isQuote : quote = '"' ∨ quote = '\'') (b : Brackets)
    (body rest : Text) : outerCommas b (quoted quote body ++ rest) =
      outerCommas b body + outerCommas (b.readAll body) rest := by
  have ignored (b : Brackets) : b.Ignores [quote] := by
    refine Brackets.ignores_of_not_counted (fun c member => ?_) b
    rw [List.mem_singleton.mp member]
    rcases isQuote with rfl | rfl <;> decide
  have parts : quoted quote body ++ rest = [quote] ++ (body ++ ([quote] ++ rest)) := by
    simp [quoted]
  rw [parts, (ignored b).outerCommas_append, outerCommas_append, (ignored _).outerCommas_append]

theorem countArguments_quoted {quote : Char} (isQuote : quote = '"' ∨ quote = '\'')
    (front body back : Text) : countArguments (front ++ (quoted quote body ++ back)) =
      outerCommas {} front + (outerCommas (({} : Brackets).readAll front) body +
        outerCommas ((({} : Brackets).readAll front).readAll body) back) + 1 := by
  have solid : ∃ c ∈ front ++ (quoted quote body ++ back), Text.isBlank c = false := by
    refine ⟨quote, List.mem_append_right _ List.mem_cons_self, ?_⟩
    rcases isQuote with rfl | rfl <;> decide
  rw [countArguments_eq solid, outerCommas_append, outerCommas_quoted isQuote]

/-- What other contents of a literal do to the count, if counting passes over them. -/
theorem countArguments_requoted_iff {quote : Char} (isQuote : quote = '"' ∨ quote = '\'')
    {other : Text} (ignored : ∀ b : Brackets, b.Ignores other) (front body back : Text) :
    countArguments (front ++ (quoted quote other ++ back)) =
        countArguments (front ++ (quoted quote body ++ back)) ↔
      outerCommas (({} : Brackets).readAll front) body +
          outerCommas ((({} : Brackets).readAll front).readAll body) back =
        outerCommas (({} : Brackets).readAll front) back := by
  rw [countArguments_quoted isQuote, countArguments_quoted isQuote, (ignored _).noComma,
    (ignored _).unchanged, Nat.zero_add, Nat.add_right_cancel_iff, Nat.add_left_cancel_iff]
  exact eq_comm

/-- What may follow a literal to find out about the brackets that are open: closing brackets in a
literal of their own, and a comma. -/
def probe (x : Brackets) : Text :=
  quoted '"' x.closers ++ [',']

theorem outerCommas_probe (b x : Brackets) {rest : Text} (noComma : ',' ∉ rest) :
    outerCommas b (probe x ++ rest) = if b.readAll x.closers = {} then 1 else 0 := by
  have noCommaInside : ',' ∉ x.closers := fun member =>
    absurd (Brackets.mem_closers member) (by decide)
  rw [probe, List.append_assoc, outerCommas_quoted (.inl rfl),
    outerCommas_of_no_comma noCommaInside, Nat.zero_add, List.singleton_append, outerCommas]
  simp only [outerCommas_of_no_comma noComma, Brackets.areClosed_iff, true_and]

/-- Contents that nothing tells from ignored ones are ignored. -/
theorem ignores_of_same {b : Brackets} {body ends : Text} (noComma : ',' ∉ ends)
    (sameEnd : outerCommas b body + outerCommas (b.readAll body) ends = outerCommas b ends)
    (sameProbe : ∀ x, outerCommas b body + outerCommas (b.readAll body) (probe x ++ ends) =
      outerCommas b (probe x ++ ends)) : b.Ignores body := by
  rw [outerCommas_of_no_comma noComma, outerCommas_of_no_comma noComma, Nat.add_zero] at sameEnd
  refine ⟨sameEnd, Brackets.eq_of_closers fun x => ?_⟩
  have same := sameProbe x
  rw [sameEnd, Nat.zero_add, outerCommas_probe _ _ noComma, outerCommas_probe _ _ noComma] at same
  by_cases closed : b.readAll x.closers = {}
  · by_cases closedToo : (b.readAll body).readAll x.closers = {}
    · simp [closed, closedToo]
    · simp [closed, closedToo] at same
  · by_cases closedToo : (b.readAll body).readAll x.closers = {}
    · simp [closed, closedToo] at same
    · simp [closed, closedToo]

/-! ## Other contents -/

/-- Characters that mean nothing, inside literals or outside of them. -/
def IsInert (c : Char) : Prop :=
  c ≠ '"' ∧ c ≠ '\'' ∧ c ≠ '\\' ∧ c ∉ countedChars

theorem literalBody_of_plain {quote : Char} {body : Text}
    (plain : ∀ c ∈ body, c ≠ '\\' ∧ c ≠ quote) : LiteralBody quote body := by
  induction body with
  | nil => exact .nil
  | cons c body ih =>
    obtain ⟨noEscape, noQuote⟩ := plain c List.mem_cons_self
    exact .plain noEscape noQuote (ih fun d member => plain d (List.mem_cons_of_mem _ member))

theorem literal_of_inert {quote : Char} (isQuote : quote = '"' ∨ quote = '\'') {body : Text}
    (inert : ∀ c ∈ body, IsInert c) : Literal (quoted quote body) := by
  refine .mk isQuote (literalBody_of_plain fun c member => ?_)
  obtain ⟨noDouble, noSingle, noEscape, -⟩ := inert c member
  exact ⟨noEscape, by rcases isQuote with rfl | rfl <;> assumption⟩

theorem literal_closers (x : Brackets) : Literal (quoted '"' x.closers) := by
  refine .mk (.inl rfl) (literalBody_of_plain fun c member => ?_)
  have plain : ∀ c ∈ [')', '>', ']', '\x7d'], c ≠ '\\' ∧ c ≠ '"' := by simp
  exact plain c (Brackets.mem_closers member)

/-- Whether arguments with a literal close depends on what is before and after the literal only. -/
theorem closed_quoted_iff {front : Text} {n : Nat}
    (goesOn : ∀ other, closingFrom 1 none (front ++ other) =
      (closingFrom (n + 1) none other).map (· + front.length))
    {quote : Char} {body : Text} (literal : Literal (quoted quote body)) {back after : Text} :
    closingFrom 1 none (front ++ (quoted quote body ++ back) ++ after) =
        some (front ++ (quoted quote body ++ back)).length ↔
      closingFrom (n + 1) none (back ++ after) = some back.length := by
  have length : (front ++ (quoted quote body ++ back)).length =
      back.length + (front ++ quoted quote body).length := by
    rw [← List.append_assoc, List.length_append, Nat.add_comm]
  rw [List.append_assoc, List.append_assoc, closingFrom_quoted goesOn literal, length,
    Option.map_eq_some_iff]
  constructor
  · rintro ⟨j, closed, same⟩
    rw [← Nat.add_right_cancel same]
    exact closed
  · intro closed
    exact ⟨_, closed, rfl⟩

/-- A closing parenthesis for each open one. -/
theorem closingFrom_replicate (n : Nat) :
    closingFrom (n + 1) none (List.replicate n ')' ++ [')']) = some n := by
  induction n with
  | zero => rfl
  | succ n ih =>
    have deeper : ((n + 1 : Nat) : Int) + 1 ≠ 1 := by omega
    rw [List.replicate_succ, List.cons_append, closingFrom_closing deeper, Int.add_sub_cancel,
      Int.natCast_succ, ih, Option.map_some]

theorem closingFrom_probe (x : Brackets) (n : Nat) :
    closingFrom (n + 1) none (probe x ++ List.replicate n ')' ++ [')']) =
      some (probe x ++ List.replicate n ')').length := by
  have comma : IsPlain ',' := by
    unfold IsPlain
    decide
  rw [probe, List.append_assoc, List.append_assoc, closingFrom_literal (literal_closers x),
    List.singleton_append, closingFrom_plain comma, closingFrom_replicate, Option.map_some,
    Option.map_some]
  simp only [List.length_append, List.length_singleton, List.length_replicate]
  congr 1
  omega

namespace CallPieces

variable {before name blanks front rest after : Text}

/-- Arguments that close have a depth of their own at each place outside of literals. -/
theorem goesOn (call : CallPieces before name blanks (front ++ rest) after) (outside : Code front) :
    ∃ n : Nat, ∀ other, closingFrom 1 none (front ++ other) =
      (closingFrom (n + 1) none other).map (· + front.length) := by
  have closed := closed_iff.mp call.closes
  rw [List.append_assoc] at closed
  exact closingFrom_code outside (by decide) closed (by simp)

/-- A call is still one with another literal in the place of a literal. -/
theorem requoted {quote : Char} {body other back : Text}
    (call : CallPieces before name blanks (front ++ (quoted quote body ++ back)) after)
    (outside : Code front) (literal : Literal (quoted quote body))
    (literalOther : Literal (quoted quote other)) :
    CallPieces before name blanks (front ++ (quoted quote other ++ back)) after := by
  obtain ⟨n, goesOn⟩ := call.goesOn outside
  have closed := (closed_quoted_iff goesOn literal).mp (closed_iff.mp call.closes)
  exact call.withArguments ((closed_quoted_iff goesOn literalOther).mpr closed)

/-- A call of `f` and nothing else before its arguments. -/
theorem of_closes {arguments after : Text}
    (closes : closing? ('(' :: (arguments ++ after)) = some (arguments.length + 1)) :
    CallPieces [] ['f'] [] arguments after where
  apart := rfl
  starts := ⟨'f', [], rfl, by decide⟩
  named := List.forall_mem_singleton.mpr (by decide)
  blank := List.forall_mem_nil _
  notKeyword := by decide
  closes := closes

end CallPieces

/-- Two texts with a call at offset `start`. Its arguments have a literal after `front`, and differ
in the contents of the literal only. -/
inductive Requoted (front : Text) (quote : Char) (body other : Text) : Text → Text → Nat → Prop
  | mk {before name blanks back after : Text}
      (call : CallPieces before name blanks (front ++ (quoted quote body ++ back)) after) :
      Requoted front quote body other
        (CallPieces.text before name blanks (front ++ (quoted quote body ++ back)) after)
        (CallPieces.text before name blanks (front ++ (quoted quote other ++ back)) after)
        before.length

/-- Whatever stands in a literal among the arguments of a call, the call is found. Other contents
without quotes, escapes, brackets and commas keep the number of its arguments, in every call with
the same arguments up to the literal, exactly if the count ignores the contents that there are: no
comma of them counts, and they open and close brackets so that all are as before. -/
theorem scanCalls_literal_iff (lines : LineIndex) (base : Int) {front : Text} {quote : Char}
    {body other : Text} (outside : Code front) (isQuote : quote = '"' ∨ quote = '\'')
    (inside : LiteralBody quote body) (inert : ∀ c ∈ other, IsInert c)
    (stands : ∃ t t' start, Requoted front quote body other t t' start) :
    (∀ t t' start, Requoted front quote body other t t' start →
      ∃ s ∈ scanCalls lines base t, ∃ s' ∈ scanCalls lines base t',
        s.offset = base + start ∧ s'.offset = base + start ∧ s'.name = s.name) ∧
    ((∀ t t' start, Requoted front quote body other t t' start →
      ∀ s ∈ scanCalls lines base t, ∀ s' ∈ scanCalls lines base t',
        s.offset = base + start → s'.offset = base + start → s'.arguments = s.arguments) ↔
      (({} : Brackets).readAll front).Ignores body) := by
  have literal : Literal (quoted quote body) := .mk isQuote inside
  have literalOther := literal_of_inert isQuote inert
  have ignored (b : Brackets) : b.Ignores other :=
    Brackets.ignores_of_not_counted (fun c member => (inert c member).2.2.2) b
  refine ⟨?_, ?_, ?_⟩
  · rintro _ _ _ ⟨call⟩
    have otherCall := call.requoted outside literal literalOther
    exact ⟨_, call.mem_scanCalls lines base, _, otherCall.mem_scanCalls lines base, rfl, rfl, rfl⟩
  · intro unchanged
    obtain ⟨_, _, _, ⟨someCall⟩⟩ := stands
    obtain ⟨n, goesOn⟩ := someCall.goesOn outside
    -- The literal is put into a call of `f` whose arguments end in `back`.
    have same (back : Text)
        (closed : closingFrom (n + 1) none (back ++ [')']) = some back.length) := by
      have call : CallPieces [] ['f'] [] (front ++ (quoted quote body ++ back)) [')'] :=
        .of_closes (CallPieces.closed_iff.mpr ((closed_quoted_iff goesOn literal).mpr closed))
      have otherCall := call.requoted outside literal literalOther
      have counts := unchanged _ _ _ (.mk call) _ (call.mem_scanCalls lines base) _
        (otherCall.mem_scanCalls lines base) rfl rfl
      exact (countArguments_requoted_iff isQuote ignored front body back).mp
        (Int.ofNat_inj.mp counts)
    have noComma : ',' ∉ List.replicate n ')' := fun member =>
      absurd (List.eq_of_mem_replicate member) (by decide)
    refine ignores_of_same noComma (same _ ?_) fun x => same _ (closingFrom_probe x n)
    rw [List.length_replicate]
    exact closingFrom_replicate n
  · rintro ⟨noComma, sameBrackets⟩ _ _ _ ⟨call⟩ s found s' found' here here'
    have otherCall := call.requoted outside literal literalOther
    rw [call.arguments_eq found here, otherCall.arguments_eq found' here', Int.ofNat_inj,
      countArguments_requoted_iff isQuote ignored, noComma, sameBrackets, Nat.zero_add]

/-- Arguments up to a literal, with a parenthesis in an earlier one. -/
def quotedFront : Text := quoted '\'' ['('] ++ [',', ' ', 'g', '(']

/-- Contents of a literal that open a bracket and close it. -/
def bracketBody : Text := ['b', '(', 'c', ')']

/-- The call `f('(', g("…", y))` with the given contents of the second literal. -/
def bracketCall (body : Text) : Text :=
  CallPieces.text [] ['f'] [] (quotedFront ++ (quoted '"' body ++ [',', ' ', 'y', ')'])) [')']

theorem code_quotedFront : Code quotedFront := by
  refine .literal (.mk (.inr rfl) (.plain (by decide) (by decide) .nil)) ?_
  exact .char (by decide) (by decide) (.char (by decide) (by decide)
    (.char (by decide) (by decide) (.char (by decide) (by decide) .nil)))

theorem scanCalls_literal_iff_bracketCall :
    Code quotedFront ∧ LiteralBody '"' bracketBody ∧ (∀ c ∈ ['-', ' '], IsInert c) ∧
      (({} : Brackets).readAll quotedFront).Ignores bracketBody ∧
      Requoted quotedFront '"' bracketBody ['-', ' '] (bracketCall bracketBody)
        (bracketCall ['-', ' ']) 0 ∧
      ∀ s ∈ scanCalls #[0] 0 (bracketCall bracketBody),
        ∀ s' ∈ scanCalls #[0] 0 (bracketCall ['-', ' ']),
          s.offset = 0 → s'.offset = 0 → s'.arguments = s.arguments := by
  have inside : LiteralBody '"' bracketBody := literalBody_of_plain (by simp [bracketBody])
  have inert : ∀ c ∈ ['-', ' '], IsInert c := by simp [IsInert, countedChars]
  have ignores : (({} : Brackets).readAll quotedFront).Ignores bracketBody :=
    ⟨by decide, by decide⟩
  have call : CallPieces [] ['f'] []
      (quotedFront ++ (quoted '"' bracketBody ++ [',', ' ', 'y', ')'])) [')'] :=
    .of_closes (by decide)
  obtain ⟨-, counts⟩ := scanCalls_literal_iff #[0] 0 code_quotedFront (.inl rfl) inside inert
    ⟨_, _, _, .mk call⟩
  exact ⟨code_quotedFront, inside, inert, ignores, .mk call,
    counts.mpr ignores _ _ _ (.mk call)⟩

/-- A comma between quotes counts: `f(",")` has two arguments and `f("a")` has one. -/
theorem scanCalls_counts_quoted_comma :
    Requoted [] '"' [','] ['a'] ['f', '(', '"', ',', '"', ')'] ['f', '(', '"', 'a', '"', ')'] 0 ∧
      (scanCalls #[0] 0 ['f', '(', '"', ',', '"', ')']).map (fun s => (s.name, s.arguments)) =
        [("f", 2)] ∧
      (scanCalls #[0] 0 ['f', '(', '"', 'a', '"', ')']).map (fun s => (s.name, s.arguments)) =
        [("f", 1)] := by
  have call : CallPieces [] ['f'] [] ([] ++ (quoted '"' [','] ++ [])) [')'] :=
    .of_closes (by decide)
  exact ⟨.mk call, by decide, by decide⟩

end JavaSurvey
