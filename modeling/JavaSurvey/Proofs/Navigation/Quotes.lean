import JavaSurvey.Navigation
import JavaSurvey.Proofs.Text.Occurrences

/-!
# The literal at the cursor

On a line the double quotes open and close literals in turn. What is taken for the literal at the
cursor stands between the last quote up to the cursor and the next one, whether or not the first of
the two opens a literal.

1. `Text.mem_literals_iff`: the literals of a line, by the quotes before each of them;
2. `stringLiteralAt?_eq_some_iff`: what is taken for the literal at the cursor;
3. `definitionTarget?_literal_iff`: when that is what a definition is asked for;
4. `stringLiteralAt?_paired_iff`: it is the literal at the cursor, if there is one, unless the
   cursor is on the quote that closes a literal, or is past it and has another quote after it.
-/

namespace JavaSurvey

namespace Text

/-! ## Quotes in pairs -/

/-- The offsets of the double quotes of a text that stands at `offset`. -/
def quotesFrom (offset : Nat) : Text → List Nat
  | [] => []
  | c :: rest =>
      if c = '"' then offset :: quotesFrom (offset + 1) rest else quotesFrom (offset + 1) rest

/-- Neighbours put together two by two, from left to right. One that is left over has no partner. -/
def pairUp : List Nat → List (Nat × Nat)
  | first :: last :: rest => (first, last) :: pairUp rest
  | _ => []

/-- The literals of a line, by the offsets of the double quotes that open and close each of them. -/
def literals (t : Text) : List (Nat × Nat) :=
  pairUp (quotesFrom 0 t)

/-- The double quotes at `first` and `last` are neighbours, with `inner` between them. -/
structure NextQuotes (t : Text) (first last : Nat) (inner : Text) : Prop where
  parts : ∃ front back, t = front ++ '"' :: (inner ++ '"' :: back) ∧ front.length = first
  last_eq : last = first + 1 + inner.length
  unquoted : '"' ∉ inner

/-- The cursor is between two neighbouring quotes, or on the first of them. -/
structure AroundAt (t : Text) (cursor first last : Nat) (inner : Text) : Prop
    extends NextQuotes t first last inner where
  after : first ≤ cursor
  before : cursor < last

/-- The quote at an offset opens a literal if those before it are paired. -/
def OpensAt (t : Text) (i : Nat) : Prop :=
  (t.take i).count '"' % 2 = 0

instance (t : Text) (i : Nat) : Decidable (t.OpensAt i) :=
  inferInstanceAs (Decidable (_ = _))

theorem quotesFrom_append (offset : Nat) (s t : Text) :
    quotesFrom offset (s ++ t) = quotesFrom offset s ++ quotesFrom (offset + s.length) t := by
  induction s generalizing offset with
  | nil => rfl
  | cons c s ih =>
    rw [List.cons_append, quotesFrom, quotesFrom, ih, List.length_cons, Nat.add_assoc,
      Nat.add_comm 1]
    split <;> rfl

theorem length_quotesFrom (offset : Nat) (t : Text) :
    (quotesFrom offset t).length = t.count '"' := by
  induction t generalizing offset with
  | nil => rfl
  | cons c t ih =>
    unfold quotesFrom
    split
    · next quote => rw [quote, List.length_cons, ih, List.count_cons_self]
    · next other => rw [ih, List.count_cons_of_ne other]

theorem quotesFrom_eq_nil_iff {offset : Nat} {t : Text} : quotesFrom offset t = [] ↔ '"' ∉ t := by
  rw [← List.length_eq_zero_iff, length_quotesFrom, List.count_eq_zero]

/-- A quote that is listed cuts the text in two, and the quotes listed before it and after it are
those of the two parts. -/
theorem exists_parts_of_quotesFrom {offset quote : Nat} {t : Text} {before after : List Nat}
    (listed : quotesFrom offset t = before ++ quote :: after) :
    ∃ front back, t = front ++ '"' :: back ∧ quote = offset + front.length ∧
      quotesFrom offset front = before ∧ quotesFrom (quote + 1) back = after := by
  induction t generalizing offset before with
  | nil => exact absurd listed.symm (by simp [quotesFrom])
  | cons c t ih =>
    -- The first quote that is listed may be the one that is looked for; else it is in the rest.
    have later {before : List Nat} (inRest : quotesFrom (offset + 1) t = before ++ quote :: after) :
        ∃ front back, c :: t = c :: front ++ '"' :: back ∧
          quote = offset + (c :: front).length ∧ quotesFrom (offset + 1) front = before ∧
          quotesFrom (quote + 1) back = after := by
      obtain ⟨front, back, rfl, place, inFront, inBack⟩ := ih inRest
      refine ⟨front, back, rfl, ?_, inFront, inBack⟩
      rw [place, List.length_cons, Nat.add_assoc, Nat.add_comm 1]
    unfold quotesFrom at listed
    split at listed
    · next isQuote =>
      cases before with
      | nil =>
        obtain ⟨rfl, inRest⟩ := List.cons.inj listed
        exact ⟨[], t, by rw [isQuote]; rfl, rfl, rfl, inRest⟩
      | cons first before =>
        obtain ⟨rfl, inRest⟩ := List.cons.inj listed
        obtain ⟨front, back, whole, place, inFront, inBack⟩ := later inRest
        refine ⟨c :: front, back, whole, place, ?_, inBack⟩
        rw [quotesFrom, if_pos isQuote, inFront]
    · next other =>
      obtain ⟨front, back, whole, place, inFront, inBack⟩ := later listed
      refine ⟨c :: front, back, whole, place, ?_, inBack⟩
      rw [quotesFrom, if_neg other, inFront]

/-- Two numbers are put together if they are neighbours and those before them are paired. -/
theorem mem_pairUp_iff {numbers : List Nat} {first last : Nat} :
    (first, last) ∈ pairUp numbers ↔
      ∃ before after, numbers = before ++ first :: last :: after ∧ before.length % 2 = 0 := by
  fun_induction pairUp numbers with
  | case1 a b rest ih =>
    rw [List.mem_cons, ih]
    constructor
    · rintro (⟨⟨⟩⟩ | ⟨before, after, rfl, even⟩)
      · exact ⟨[], rest, rfl, rfl⟩
      · exact ⟨a :: b :: before, after, rfl, (Nat.add_mod_right _ 2).trans even⟩
    · rintro ⟨before, after, whole, even⟩
      rcases before with _ | ⟨_, _ | ⟨_, before⟩⟩
      · cases whole
        exact .inl rfl
      · cases even
      · cases whole
        exact .inr ⟨before, after, rfl, (Nat.add_mod_right _ 2).symm.trans even⟩
  | case2 numbers short =>
    refine iff_of_false List.not_mem_nil ?_
    rintro ⟨before, after, rfl, even⟩
    rcases before with _ | ⟨a, _ | ⟨b, before⟩⟩
    · exact short first last after rfl
    · cases even
    · exact short a b _ rfl

/-- The literals of a line are the neighbouring quotes of which the first opens a literal. -/
theorem mem_literals_iff {t : Text} {first last : Nat} :
    (first, last) ∈ t.literals ↔
      t.OpensAt first ∧ ∃ inner, t.NextQuotes first last inner := by
  rw [literals, mem_pairUp_iff]
  constructor
  · rintro ⟨before, after, listed, even⟩
    obtain ⟨front, rest, rfl, place, inFront, inRest⟩ := exists_parts_of_quotesFrom listed
    rw [← List.nil_append (last :: after)] at inRest
    obtain ⟨inner, back, rfl, last_eq, inInner, -⟩ := exists_parts_of_quotesFrom inRest
    rw [Nat.zero_add] at place
    refine ⟨?_, inner, ⟨front, back, rfl, place.symm⟩, last_eq, quotesFrom_eq_nil_iff.mp inInner⟩
    rw [OpensAt, place, List.take_left, ← length_quotesFrom 0, inFront, even]
  · rintro ⟨opens, inner, ⟨front, back, rfl, rfl⟩, rfl, unquoted⟩
    refine ⟨quotesFrom 0 front, quotesFrom (front.length + 1 + inner.length + 1) back, ?_, ?_⟩
    · rw [quotesFrom_append, Nat.zero_add, quotesFrom, if_pos rfl, quotesFrom_append,
        quotesFrom_eq_nil_iff.mpr unquoted, List.nil_append, quotesFrom, if_pos rfl]
    · rwa [OpensAt, List.take_left, ← length_quotesFrom 0] at opens

/-! ## Closing quotes -/

/-- The quote at an offset closes a literal. -/
def ClosesAt (t : Text) (i : Nat) : Prop :=
  ∃ first, (first, i) ∈ t.literals

/-- An offset is past a quote that closes a literal and before the next quote. -/
def OutsideAt (t : Text) (i : Nat) : Prop :=
  ∃ first last inner, t.NextQuotes first last inner ∧ t.ClosesAt first ∧ first < i ∧ i < last

variable {t : Text} {first last : Nat} {inner : Text}

theorem NextQuotes.count_take (quotes : t.NextQuotes first last inner) :
    (t.take last).count '"' = (t.take first).count '"' + 1 := by
  obtain ⟨⟨front, back, rfl, rfl⟩, rfl, unquoted⟩ := quotes
  have upTo : front.length + 1 + inner.length = front.length + ('"' :: inner).length := by
    rw [List.length_cons, Nat.add_assoc, Nat.add_comm 1]
  rw [List.take_left, upTo, ← List.cons_append, List.take_length_add_append, List.take_left,
    List.count_append, List.count_cons_self, List.count_eq_zero.mpr unquoted]

/-- A quote that closes a literal does not open one. -/
theorem ClosesAt.not_opensAt {i : Nat} (closes : t.ClosesAt i) : ¬ t.OpensAt i := by
  obtain ⟨first, listed⟩ := closes
  obtain ⟨opens, inner, quotes⟩ := mem_literals_iff.mp listed
  unfold OpensAt at opens ⊢
  rw [quotes.count_take]
  omega

/-- Of neighbouring quotes, the first one closes a literal if it does not open one. -/
theorem NextQuotes.closesAt (quotes : t.NextQuotes first last inner)
    (notOpen : ¬ t.OpensAt first) : t.ClosesAt first := by
  obtain ⟨⟨front, back, rfl, rfl⟩, -, -⟩ := quotes
  rw [OpensAt, List.take_left] at notOpen
  have isQuoted : '"' ∈ front := by
    rw [← List.count_pos_iff]
    omega
  -- The last quote before it opens the literal that it closes.
  obtain ⟨earlier, between, rfl, unquoted⟩ := exists_last_of_mem isQuoted
  rw [List.count_append, List.count_cons_self, List.count_eq_zero.mpr unquoted] at notOpen
  refine ⟨earlier.length, mem_literals_iff.mpr ⟨?_, between, ?_, ?_, unquoted⟩⟩
  · rw [OpensAt, List.append_assoc, List.take_left]
    omega
  · exact ⟨earlier, inner ++ '"' :: back, by simp, rfl⟩
  · rw [List.length_append, List.length_cons, Nat.add_assoc, Nat.add_comm 1]

theorem NextQuotes.getElem?_first (quotes : t.NextQuotes first last inner) :
    t[first]? = some '"' := by
  obtain ⟨⟨front, back, rfl, rfl⟩, -, -⟩ := quotes
  simp

theorem NextQuotes.getElem?_last (quotes : t.NextQuotes first last inner) :
    t[last]? = some '"' := by
  obtain ⟨⟨front, back, rfl, rfl⟩, rfl, -⟩ := quotes
  rw [Nat.add_assoc, List.getElem?_append_right (Nat.le_add_right _ _), Nat.add_sub_cancel_left,
    Nat.add_comm, List.getElem?_cons_succ]
  simp

/-- There is no quote between neighbouring ones. -/
theorem NextQuotes.eq_first (quotes : t.NextQuotes first last inner) {i : Nat}
    (isQuote : t[i]? = some '"') (after : first ≤ i) (before : i < last) : i = first := by
  obtain ⟨⟨front, back, rfl, rfl⟩, rfl, unquoted⟩ := quotes
  obtain ⟨k, rfl⟩ := Nat.exists_eq_add_of_le after
  rw [List.getElem?_append_right (Nat.le_add_right _ _), Nat.add_sub_cancel_left] at isQuote
  cases k with
  | zero => rfl
  | succ k =>
    rw [List.getElem?_cons_succ, List.getElem?_append_left (by omega)] at isQuote
    exact absurd (List.mem_of_getElem? isQuote) unquoted

theorem ClosesAt.getElem? {i : Nat} (closes : t.ClosesAt i) : t[i]? = some '"' := by
  obtain ⟨first, listed⟩ := closes
  obtain ⟨-, inner, quotes⟩ := mem_literals_iff.mp listed
  exact quotes.getElem?_last

/-- Where the cursor is between two neighbouring quotes or on the first of them, these are the
quotes of a literal unless the first one closes a literal before it. -/
theorem AroundAt.mem_literals_iff {cursor : Nat} (around : t.AroundAt cursor first last inner) :
    (first, last) ∈ t.literals ↔ ¬ t.ClosesAt cursor ∧ ¬ t.OutsideAt cursor := by
  obtain ⟨quotes, after, before⟩ := around
  rw [Text.mem_literals_iff]
  constructor
  · rintro ⟨opens, -⟩
    constructor
    · intro closes
      obtain rfl := quotes.eq_first closes.getElem? after before
      exact closes.not_opensAt opens
    · rintro ⟨other, next, _, others, closes, past, ahead⟩
      -- Both pairs have the last quote before the cursor as their first one.
      obtain rfl : other = first := by
        rcases Nat.le_total first other with le | le
        · exact quotes.eq_first others.getElem?_first le (Nat.lt_trans past before)
        · exact (others.eq_first quotes.getElem?_first le (Nat.lt_of_le_of_lt after ahead)).symm
      exact closes.not_opensAt opens
  · rintro ⟨notClosing, notOutside⟩
    refine ⟨Decidable.byContradiction fun notOpen => ?_, inner, quotes⟩
    have closes := quotes.closesAt notOpen
    rcases Nat.eq_or_lt_of_le after with rfl | past
    · exact notClosing closes
    · exact notOutside ⟨first, last, inner, quotes, closes, past, before⟩

/-! ## The last quote up to an offset -/

theorem take_succ_append_cons (front rest : Text) (k : Nat) :
    (front ++ '"' :: rest).take (front.length + k + 1) = front ++ '"' :: rest.take k := by
  rw [Nat.add_assoc, List.take_length_add_append, List.take_succ_cons]

/-- A line with quotes up to an offset is cut at the last of them. -/
theorem exists_lastQuote {i : Nat} (isQuoted : '"' ∈ t.take (i + 1)) :
    ∃ front rest k, t = front ++ '"' :: rest ∧ i = front.length + k ∧ '"' ∉ rest.take k := by
  obtain ⟨front, middle, upTo, unquoted⟩ := exists_last_of_mem isQuoted
  have after : front.length ≤ i := by
    have shorter := List.length_take_le (i + 1) t
    rw [upTo, List.length_append, List.length_cons] at shorter
    omega
  obtain ⟨k, rfl⟩ := Nat.exists_eq_add_of_le after
  have whole : t = front ++ '"' :: (middle ++ t.drop (front.length + k + 1)) := by
    rw [← List.cons_append, ← List.append_assoc, ← upTo, List.take_append_drop]
  refine ⟨front, _, k, whole, rfl, ?_⟩
  rw [whole, take_succ_append_cons, List.append_cancel_left_eq, List.cons.injEq] at upTo
  rwa [upTo.2]

end Text

/-! ## What is taken for the literal at the cursor -/

/-- From the last quote up to the cursor, the search goes on to the next one. -/
theorem stringLiteralAt?_append_cons {front rest : Text} {k : Nat} (unquoted : '"' ∉ rest.take k) :
    stringLiteralAt? (front ++ '"' :: rest) (front.length + k : Nat) =
      let inner := rest.takeWhile (· != '"')
      if inner.length < rest.length ∧ k ≤ 1 + inner.length then
        some ⟨String.ofList inner, front.length + 1, front.length + 1 + inner.length⟩
      else none := by
  have rest_eq : (front ++ '"' :: rest).drop (front.length + 1) = rest := by
    rw [List.drop_length_add_append, List.drop_succ_cons, List.drop_zero]
  unfold stringLiteralAt?
  rw [if_neg (Int.not_lt.mpr (Int.natCast_nonneg _)), Int.toNat_natCast,
    Text.take_succ_append_cons, Text.findLast?_append_cons unquoted]
  dsimp only
  rw [rest_eq]
  congr 1
  rw [List.length_append, List.length_cons, eq_iff_iff]
  omega

theorem stringLiteralAt?_of_aroundAt {t : Text} {cursor first last : Nat} {inner : Text}
    (around : t.AroundAt cursor first last inner) :
    stringLiteralAt? t cursor = some ⟨String.ofList inner, first + 1, last⟩ := by
  obtain ⟨⟨⟨front, back, rfl, rfl⟩, rfl, unquoted⟩, after, before⟩ := around
  obtain ⟨k, rfl⟩ := Nat.exists_eq_add_of_le after
  have within : k ≤ inner.length := by omega
  have noQuote : '"' ∉ (inner ++ '"' :: back).take k := by
    rw [List.take_append_of_le_length within]
    exact fun member => unquoted (List.mem_of_mem_take member)
  rw [stringLiteralAt?_append_cons noQuote, Text.takeWhile_ne_append_cons unquoted]
  refine if_pos ⟨?_, Nat.le_trans within (Nat.le_add_left _ _)⟩
  simp

/-- What is taken for the literal at the cursor is what is between the last quote up to the cursor
and the next one. -/
theorem stringLiteralAt?_eq_some_iff {t : Text} {cursor : Nat} {literal : StringLiteral} :
    stringLiteralAt? t cursor = some literal ↔
      ∃ first last inner, t.AroundAt cursor first last inner ∧
        literal = ⟨String.ofList inner, first + 1, last⟩ := by
  constructor
  · intro found
    by_cases isQuoted : '"' ∈ t.take (cursor + 1)
    · obtain ⟨front, rest, k, rfl, rfl, noQuote⟩ := Text.exists_lastQuote isQuoted
      by_cases closed : '"' ∈ rest
      · obtain ⟨inner, back, rfl, unquoted⟩ := List.eq_append_cons_of_mem closed
        have within : k ≤ inner.length := by
          apply Nat.le_of_not_lt
          intro past
          obtain ⟨more, rfl⟩ := Nat.exists_eq_add_of_lt past
          rw [Nat.add_assoc, List.take_length_add_append, List.take_succ_cons] at noQuote
          exact noQuote (List.mem_append_right _ List.mem_cons_self)
        have around : Text.AroundAt (front ++ '"' :: (inner ++ '"' :: back)) (front.length + k)
            front.length (front.length + 1 + inner.length) inner :=
          ⟨⟨⟨front, back, rfl, rfl⟩, rfl, unquoted⟩, Nat.le_add_right _ _, by omega⟩
        rw [stringLiteralAt?_of_aroundAt around] at found
        cases found
        exact ⟨_, _, inner, around, rfl⟩
      · rw [stringLiteralAt?_append_cons noQuote, Text.takeWhile_ne_of_not_mem closed] at found
        simp at found
    · unfold stringLiteralAt? at found
      rw [if_neg (Int.not_lt.mpr (Int.natCast_nonneg _)), Int.toNat_natCast,
        Text.findLast?_eq_none isQuoted] at found
      cases found
  · rintro ⟨first, last, inner, around, rfl⟩
    exact stringLiteralAt?_of_aroundAt around

/-! ## What a definition is asked for -/

/-- A line calls a method that publishes a service. -/
def Publishes (t : Text) : Prop :=
  "publishBinderService".toList <:+: t ∨ "addService".toList <:+: t

/-- A line is about what is started. -/
def Starts (t : Text) : Prop :=
  "start".toList <:+: t ∨ "init".toList <:+: t

/-- The kind of definition that a literal on a line asks for. -/
def DefinitionKind.AskedBy (t : Text) : DefinitionKind → Prop
  | serviceContext => Publishes t
  | initService => ¬ Publishes t ∧ Starts t
  | jniMethod => False

/-- What is taken for the literal at the cursor is what is asked for, on a line that asks by a
literal. -/
theorem definitionTarget?_literal_iff {t : Text} {cursor : Int} {kind : DefinitionKind}
    {symbol : String} :
    definitionTarget? t cursor = some ⟨kind, symbol⟩ ∧ kind ≠ .jniMethod ↔
      kind.AskedBy t ∧
        ∃ literal, stringLiteralAt? t cursor = some literal ∧ symbol = literal.text := by
  have publishes : (Text.occursIn "publishBinderService".toList t ||
      Text.occursIn "addService".toList t) = true ↔ Publishes t := by
    rw [Bool.or_eq_true, Text.occursIn_iff, Text.occursIn_iff, Publishes]
  have starts : (Text.occursIn "start".toList t ||
      Text.occursIn "init".toList t) = true ↔ Starts t := by
    rw [Bool.or_eq_true, Text.occursIn_iff, Text.occursIn_iff, Starts]
  have native : (if hasNative false t then
      (wordAt? t cursor).map (DefinitionTarget.mk .jniMethod) else none) =
        some ⟨kind, symbol⟩ → kind = .jniMethod := by
    intro found
    split at found
    · obtain ⟨word, -, target⟩ := Option.map_eq_some_iff.mp found
      cases target
      rfl
    · cases found
  unfold definitionTarget?
  dsimp only
  cases found : stringLiteralAt? t cursor with
  | none =>
    refine iff_of_false (fun ⟨target, other⟩ => other (native target)) ?_
    rintro ⟨-, literal, missing, -⟩
    cases missing
  | some literal =>
    dsimp only
    by_cases published : Publishes t
    · rw [if_pos (publishes.mpr published)]
      cases kind <;> simp [DefinitionKind.AskedBy, published, eq_comm]
    · rw [if_neg (published ∘ publishes.mp)]
      by_cases started : Starts t
      · rw [if_pos (starts.mpr started)]
        cases kind <;> simp [DefinitionKind.AskedBy, published, started, eq_comm]
      · rw [if_neg (started ∘ starts.mp)]
        refine iff_of_false (fun ⟨target, other⟩ => other (native target)) ?_
        rintro ⟨asked, -⟩
        cases kind with
        | serviceContext => exact published asked
        | initService => exact started asked.2
        | jniMethod => exact asked

/-- What is to be found for the cursor: the literal from whose first to whose last quote the cursor
is, or nothing when there is no such literal. -/
inductive Text.LiteralUnder (t : Text) (cursor : Nat) : Option StringLiteral → Prop
  | found {first last : Nat} {inner : Text} (listed : (first, last) ∈ t.literals)
      (quotes : t.NextQuotes first last inner) (after : first ≤ cursor) (before : cursor ≤ last) :
      LiteralUnder t cursor (some ⟨String.ofList inner, first + 1, last⟩)
  | missing (absent : ∀ first last, (first, last) ∈ t.literals → first ≤ cursor → last < cursor) :
      LiteralUnder t cursor none

theorem stringLiteralAt?_under_iff {t : Text} {cursor : Nat} :
    t.LiteralUnder cursor (stringLiteralAt? t cursor) ↔
      ¬ t.ClosesAt cursor ∧ ¬ t.OutsideAt cursor := by
  constructor
  · intro under
    generalize taken : stringLiteralAt? t cursor = literal at under
    cases under with
    | found listed quotes after before =>
      obtain ⟨first, last, inner, around, same⟩ := stringLiteralAt?_eq_some_iff.mp taken
      injection same with _ sameFirst sameLast
      cases Nat.succ.inj sameFirst
      cases sameLast
      exact around.mem_literals_iff.mp listed
    | missing absent =>
      constructor
      · rintro ⟨first, listed⟩
        obtain ⟨-, inner, quotes⟩ := Text.mem_literals_iff.mp listed
        have last_eq := quotes.last_eq
        exact Nat.lt_irrefl _ (absent first cursor listed (by omega))
      · rintro ⟨first, last, inner, quotes, -, past, ahead⟩
        have around : t.AroundAt cursor first last inner := ⟨quotes, Nat.le_of_lt past, ahead⟩
        rw [stringLiteralAt?_of_aroundAt around] at taken
        cases taken
  · intro inside
    cases taken : stringLiteralAt? t cursor with
    | some literal =>
      obtain ⟨first, last, inner, around, rfl⟩ := stringLiteralAt?_eq_some_iff.mp taken
      exact .found (around.mem_literals_iff.mpr inside) around.toNextQuotes around.after
        (Nat.le_of_lt around.before)
    | none =>
      refine .missing ?_
      intro first last listed after
      obtain ⟨-, inner, quotes⟩ := Text.mem_literals_iff.mp listed
      apply Nat.lt_of_le_of_ne
      · apply Nat.le_of_not_lt
        intro before
        rw [stringLiteralAt?_of_aroundAt ⟨quotes, after, before⟩] at taken
        cases taken
      · rintro rfl
        exact inside.1 ⟨first, listed⟩

/-- What is taken for the literal at the cursor is the one that is to be found, unless the cursor is
on the quote that closes a literal, or past it and before another quote. It is always what is
between the last quote up to the cursor and the next one, and that is also what a definition is
asked for. -/
theorem stringLiteralAt?_paired_iff (t : Text) (cursor : Nat) :
    (t.LiteralUnder cursor (stringLiteralAt? t cursor) ↔
      ¬ t.ClosesAt cursor ∧ ¬ t.OutsideAt cursor) ∧
    (∀ literal, stringLiteralAt? t cursor = some literal ↔
      ∃ first last inner, t.AroundAt cursor first last inner ∧
        literal = ⟨String.ofList inner, first + 1, last⟩) ∧
    ∀ kind symbol, definitionTarget? t cursor = some ⟨kind, symbol⟩ ∧ kind ≠ .jniMethod ↔
      kind.AskedBy t ∧ ∃ first last inner, t.AroundAt cursor first last inner ∧
        symbol = String.ofList inner ∧
        ((first, last) ∈ t.literals ↔ ¬ t.ClosesAt cursor ∧ ¬ t.OutsideAt cursor) := by
  refine ⟨stringLiteralAt?_under_iff, fun literal => stringLiteralAt?_eq_some_iff, ?_⟩
  intro kind symbol
  rw [definitionTarget?_literal_iff]
  apply and_congr_right
  intro _
  simp only [stringLiteralAt?_eq_some_iff]
  constructor
  · rintro ⟨_, ⟨first, last, inner, around, rfl⟩, rfl⟩
    exact ⟨first, last, inner, around, rfl, around.mem_literals_iff⟩
  · rintro ⟨first, last, inner, around, rfl, -⟩
    exact ⟨_, ⟨first, last, inner, around, rfl⟩, rfl⟩

/-- A line with two literals. -/
def twoLiterals : Text :=
  "addService(\"a\", \"b\")".toList

/-- Between two literals, and on the quote that closes the first of them, what is between them is
taken for a literal, and a service of that name is asked for. -/
theorem twoLiterals_between :
    twoLiterals.literals = [(11, 13), (16, 18)] ∧
      stringLiteralAt? twoLiterals 13 = some ⟨", ", 14, 16⟩ ∧
      ¬ twoLiterals.LiteralUnder 13 (stringLiteralAt? twoLiterals 13) ∧
      stringLiteralAt? twoLiterals 14 = some ⟨", ", 14, 16⟩ ∧
      ¬ twoLiterals.LiteralUnder 14 (stringLiteralAt? twoLiterals 14) ∧
      definitionTarget? twoLiterals 14 = some ⟨.serviceContext, ", "⟩ := by
  have literals : twoLiterals.literals = [(11, 13), (16, 18)] := by decide
  have closes : twoLiterals.ClosesAt 13 := ⟨11, by rw [literals]; exact List.mem_cons_self⟩
  have quotes : twoLiterals.NextQuotes 13 16 ", ".toList :=
    ⟨⟨"addService(\"a".toList, "b\")".toList, by decide, by decide⟩, by decide, by decide⟩
  have outside : twoLiterals.OutsideAt 14 :=
    ⟨13, 16, ", ".toList, quotes, closes, by decide, by decide⟩
  refine ⟨literals, by decide, ?_, by decide, ?_, by decide⟩
  · intro under
    exact (stringLiteralAt?_under_iff.mp under).1 closes
  · intro under
    exact (stringLiteralAt?_under_iff.mp under).2 outside

end JavaSurvey
