import JavaSurvey.Proofs.Text.Slices
import JavaSurvey.Proofs.Workspace.Brackets

/-!
# What patterns match

`Pattern.Matches` says which names a pattern matches, with one rule for each thing that the pattern
can start with. A star takes any characters, also those that divide directories.

1. `globParts_bracket`, `globParts_plain`: the parts of a pattern, by what it starts with;
2. `globMatches_iff`: a name is found to match exactly if the pattern matches it.
-/

namespace JavaSurvey

namespace Pattern

/-- The characters between a bracket and the one that closes it. The first of them, an exclamation
mark apart, may itself be a closing bracket. -/
inductive Inner : Text → Prop
  | plain (c : Char) (rest : Text) (first : c ≠ '!') (unclosed : ']' ∉ rest) : Inner (c :: rest)
  | negated (c : Char) (rest : Text) (unclosed : ']' ∉ rest) : Inner ('!' :: c :: rest)

/-- A character before the rest of a pattern stands for itself. -/
structure Plain (c : Char) (rest : Text) : Prop where
  notStar : c ≠ '*'
  notAny : c ≠ '?'
  notBracket : c = '[' → ∀ inner later, Inner inner → rest ≠ inner ++ ']' :: later

/-- A pattern matches a whole name. -/
inductive Matches : Text → Text → Prop
  | nil : Matches [] []
  | star (front : Text) {pattern name : Text} (later : Matches pattern name) :
      Matches ('*' :: pattern) (front ++ name)
  | any (c : Char) {pattern name : Text} (later : Matches pattern name) :
      Matches ('?' :: pattern) (c :: name)
  | bracket {inner : Text} {c : Char} {pattern name : Text} (closed : Inner inner)
      (stands : StandsFor inner c) (later : Matches pattern name) :
      Matches ('[' :: (inner ++ ']' :: pattern)) (c :: name)
  | char {c : Char} {pattern name : Text} (plain : Plain c pattern)
      (later : Matches pattern name) : Matches (c :: pattern) (c :: name)

end Pattern

/-! ## The parts of a pattern -/

theorem unclosed_cons {c : Char} {front : Text} (first : c ≠ ']') (unclosed : ']' ∉ front) :
    ']' ∉ c :: front :=
  List.not_mem_cons_of_ne_of_not_mem first.symm unclosed

theorem bracketLength?_of_inner {inner : Text} (closed : Pattern.Inner inner) (rest : Text) :
    bracketLength? (inner ++ ']' :: rest) = some inner.length := by
  cases closed with
  | plain c front first unclosed =>
    by_cases close : c = ']'
    · subst close
      simp [bracketLength?, Text.takeWhile_ne_append_cons unclosed, Nat.add_comm]
    · have whole := Text.takeWhile_ne_append_cons (unclosed_cons close unclosed) rest
      rw [List.cons_append] at whole ⊢
      simp [bracketLength?, first, close, whole]
  | negated c front unclosed =>
    by_cases close : c = ']'
    · subst close
      simp [bracketLength?, Text.takeWhile_ne_append_cons unclosed, Nat.add_comm 2]
    · have whole := Text.takeWhile_ne_append_cons (unclosed_cons close unclosed) rest
      rw [List.cons_append] at whole
      simp [bracketLength?, close, whole, Nat.add_comm 1]

theorem bracketLength?_unclosed {t : Text}
    (unclosed : ∀ inner rest, Pattern.Inner inner → t ≠ inner ++ ']' :: rest) :
    bracketLength? t = none := by
  cases t with
  | nil => rfl
  | cons c more =>
    by_cases mark : c = '!'
    · subst mark
      cases more with
      | nil => rfl
      | cons d more =>
        have none : ']' ∉ more := by
          intro member
          obtain ⟨front, rest, rfl, first⟩ := List.eq_append_cons_of_mem member
          exact unclosed ('!' :: d :: front) rest (.negated d front first) rfl
        by_cases close : d = ']'
        · subst close
          simp [bracketLength?, Text.takeWhile_ne_of_not_mem none]
        · simp [bracketLength?, close, Text.takeWhile_ne_of_not_mem (unclosed_cons close none)]
    · have none : ']' ∉ more := by
        intro member
        obtain ⟨front, rest, rfl, first⟩ := List.eq_append_cons_of_mem member
        exact unclosed (c :: front) rest (.plain c front mark first) rfl
      by_cases close : c = ']'
      · subst close
        simp [bracketLength?, Text.takeWhile_ne_of_not_mem none]
      · simp [bracketLength?, mark, close, Text.takeWhile_ne_of_not_mem (unclosed_cons close none)]

theorem globParts_skip (skip : Nat) (t : Text) : globParts skip t = globParts 0 (t.drop skip) := by
  induction skip generalizing t with
  | zero => rfl
  | succ skip ih =>
    cases t with
    | nil => rfl
    | cons c rest => exact ih rest

theorem globParts_bracket {inner : Text} (closed : Pattern.Inner inner) (rest : Text) :
    globParts 0 ('[' :: (inner ++ ']' :: rest)) = bracketPart inner :: globParts 0 rest := by
  have length := bracketLength?_of_inner closed rest
  have after : (inner ++ ']' :: rest).drop (inner.length + 1) = rest := by
    rw [← List.drop_drop, List.drop_left]
    rfl
  rw [globParts, if_neg (by decide), if_neg (by decide), if_pos rfl, length]
  simp only [List.take_left, globParts_skip (inner.length + 1), after]

theorem globParts_plain {c : Char} {rest : Text} (plain : Pattern.Plain c rest) :
    globParts 0 (c :: rest) = .char c :: globParts 0 rest := by
  rw [globParts, if_neg plain.notStar, if_neg plain.notAny]
  split
  · next bracket => rw [bracketLength?_unclosed (plain.notBracket bracket)]
  · rfl

/-! ## Matching -/

theorem matchParts_cons_iff {part : GlobPart} (single : part ≠ .anyText) {parts : List GlobPart}
    {t : Text} : matchParts (part :: parts) t = true ↔
      ∃ c rest, t = c :: rest ∧ part.holds c = true ∧ matchParts parts rest = true := by
  cases t with
  | nil =>
    cases part with
    | anyText => exact absurd rfl single
    | _ => simp [matchParts]
  | cons c rest =>
    have here : matchParts (part :: parts) (c :: rest) =
        (part.holds c && matchParts parts rest) := by
      cases part with
      | anyText => exact absurd rfl single
      | _ => rfl
    rw [here, Bool.and_eq_true]
    constructor
    · exact fun both => ⟨c, rest, rfl, both⟩
    · rintro ⟨_, _, same, both⟩
      obtain ⟨rfl, rfl⟩ := List.cons.inj same
      exact both

theorem bracketPart_ne_anyText (inner : Text) : bracketPart inner ≠ .anyText := by
  rw [bracketPart]
  split
  · split <;> exact GlobPart.noConfusion
  · exact GlobPart.noConfusion

theorem matchParts_of_matches {pattern name : Text} (matched : Pattern.Matches pattern name) :
    matchParts (globParts 0 pattern) name = true := by
  induction matched with
  | nil => rfl
  | star front later ih => exact Text.anyRest_iff.mpr ⟨front, _, rfl, ih⟩
  | any c later ih => exact ih
  | @bracket inner c pattern name closed stands later ih =>
    have holds := (bracketPart_holds_iff inner c).mpr stands
    rw [globParts_bracket closed]
    exact (matchParts_cons_iff (bracketPart_ne_anyText inner)).mpr ⟨c, name, rfl, holds, ih⟩
  | @char c pattern name plain later ih =>
    have literal : GlobPart.char c ≠ .anyText := GlobPart.noConfusion
    rw [globParts_plain plain]
    exact (matchParts_cons_iff literal).mpr ⟨c, name, rfl, beq_self_eq_true c, ih⟩

/-- What a pattern can start with. -/
theorem Pattern.starts (c : Char) (rest : Text) :
    c = '*' ∨ c = '?' ∨ (∃ inner later, c = '[' ∧ Inner inner ∧ rest = inner ++ ']' :: later) ∨
      Plain c rest := by
  by_cases star : c = '*'
  · exact .inl star
  by_cases any : c = '?'
  · exact .inr (.inl any)
  by_cases closed : ∃ inner later, c = '[' ∧ Inner inner ∧ rest = inner ++ ']' :: later
  · exact .inr (.inr (.inl closed))
  refine .inr (.inr (.inr ⟨star, any, fun bracket inner later isInner split => ?_⟩))
  exact closed ⟨inner, later, bracket, isInner, split⟩

theorem matches_of_matchParts {pattern name : Text}
    (matched : matchParts (globParts 0 pattern) name = true) : Pattern.Matches pattern name := by
  -- What follows a closed bracket is not the tail of the pattern: the induction is on its length.
  induction length : pattern.length using Nat.strongRecOn generalizing pattern name with
  | ind n shorter =>
  subst length
  have later {rest name : Text} (less : rest.length < pattern.length)
      (restMatched : matchParts (globParts 0 rest) name = true) : Pattern.Matches rest name :=
    shorter _ less restMatched rfl
  cases pattern with
  | nil =>
    rw [List.isEmpty_iff.mp matched]
    exact .nil
  | cons c rest =>
    have tail : rest.length < (c :: rest).length := Nat.lt_succ_self _
    obtain rfl | rfl | ⟨inner, after, rfl, closed, rfl⟩ | plain := Pattern.starts c rest
    · obtain ⟨front, name, rfl, rest⟩ := Text.anyRest_iff.mp matched
      exact .star front (later tail rest)
    · have single : GlobPart.anyChar ≠ .anyText := GlobPart.noConfusion
      obtain ⟨d, name, rfl, -, rest⟩ := (matchParts_cons_iff single).mp matched
      exact .any d (later tail rest)
    · rw [globParts_bracket closed] at matched
      obtain ⟨d, name, rfl, holds, rest⟩ :=
        (matchParts_cons_iff (bracketPart_ne_anyText inner)).mp matched
      have less : after.length < ('[' :: (inner ++ ']' :: after)).length := by
        simp only [List.length_cons, List.length_append]
        omega
      exact .bracket closed ((bracketPart_holds_iff inner d).mp holds) (later less rest)
    · have single : GlobPart.char c ≠ .anyText := GlobPart.noConfusion
      rw [globParts_plain plain] at matched
      obtain ⟨d, name, rfl, same, rest⟩ := (matchParts_cons_iff single).mp matched
      rw [← beq_iff_eq.mp same]
      exact .char plain (later tail rest)

/-- A name is found to match exactly if the pattern matches it. -/
theorem globMatches_iff {pattern name : String} :
    globMatches pattern name = true ↔ Pattern.Matches pattern.toList name.toList := by
  rw [globMatches, matchRow_headD]
  exact ⟨matches_of_matchParts, matchParts_of_matches⟩

end JavaSurvey
