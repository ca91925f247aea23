import JavaSurvey.Proofs.Calls.Parentheses
import JavaSurvey.Proofs.Text.Blanks

/-!
# The calls of a text

The scan tries every character of a text. Here its result is compared with what a call is by the
characters of the text, and with a search that goes on behind each match.

1. `Head.callAt?`: what stands before the arguments of a call can be read in one way only;
2. `mem_scanCalls_iff`: the sites found are the calls of the text;
3. `Search.scanFrom_eq`: a search that never goes back into a match finds the same, since no name
   starts inside one;
4. `scanCalls_exact`: the calls are all found, in the order of the text.
-/

namespace JavaSurvey

/-! ## Before the arguments -/

theorem inName_of_startsName {c : Char} (starts : startsName c = true) : inName c = true := by
  have letters : ∀ n < 128, 97 ≤ n ∧ n ≤ 122 ∨ 65 ≤ n ∧ n ≤ 90 →
      Text.inside Text.Table.wordBounds n = true := by decide
  simp only [startsName, Text.isLetter, Bool.or_eq_true, Bool.and_eq_true, decide_eq_true_eq,
    beq_iff_eq] at starts
  rw [inName, Bool.or_eq_true]
  rcases starts with (letter | rfl) | rfl
  · refine .inl (letters c.toNat ?_ letter)
    rcases letter with ⟨-, last⟩ | ⟨-, last⟩
    · exact Nat.lt_of_le_of_lt last (by decide)
    · exact Nat.lt_of_le_of_lt last (by decide)
  · exact .inl (by decide)
  · exact .inr rfl

theorem inName_of_isBlank {c : Char} (blank : Text.isBlank c = true) : inName c = false := by
  rw [inName, Text.isWord_of_isBlank blank, Bool.false_or, beq_eq_false_iff_ne]
  rintro rfl
  cases blank

/-- A text starts with a name, blanks and an opening parenthesis. -/
structure Head (t name blanks rest : Text) : Prop where
  parts : t = name ++ (blanks ++ '(' :: rest)
  starts : ∃ c more, name = c :: more ∧ startsName c = true
  named : ∀ c ∈ name, inName c = true
  blank : ∀ c ∈ blanks, Text.isBlank c = true

/-- Neither a blank nor a parenthesis goes on with a name. -/
theorem nameEnds_blanks {blanks : Text} (blank : ∀ c ∈ blanks, Text.isBlank c = true)
    (rest : Text) : ∃ c more, blanks ++ '(' :: rest = c :: more ∧ inName c = false := by
  cases blanks with
  | nil => exact ⟨'(', rest, rfl, by decide⟩
  | cons c blanks => exact ⟨c, _, rfl, inName_of_isBlank (blank c List.mem_cons_self)⟩

namespace Head

variable {t name blanks rest : Text}

theorem ne_nil (head : Head t name blanks rest) : t ≠ [] := by
  obtain ⟨c, more, rfl, -⟩ := head.starts
  rw [head.parts]
  exact List.cons_ne_nil _ _

/-- The name is all that can be read of one. -/
theorem name_eq (head : Head t name blanks rest) :
    t.takeWhile inName = name ∧ t.dropWhile inName = blanks ++ '(' :: rest := by
  obtain ⟨c, more, after, ends⟩ := nameEnds_blanks head.blank rest
  have stops : ¬ inName c = true := by simp [ends]
  rw [head.parts, after]
  constructor
  · rw [List.takeWhile_append_of_pos head.named, List.takeWhile_cons_of_neg stops, List.append_nil]
  · rw [List.dropWhile_append_of_pos head.named, List.dropWhile_cons_of_neg stops]

/-- So are the blanks after it. -/
theorem rest_eq (head : Head t name blanks rest) :
    (t.dropWhile inName).dropWhile Text.isBlank = '(' :: rest := by
  rw [head.name_eq.2, List.dropWhile_append_of_pos head.blank]
  exact List.dropWhile_cons_of_neg (by decide)

theorem unique (head : Head t name blanks rest) {name' blanks' rest' : Text}
    (other : Head t name' blanks' rest') : name = name' ∧ blanks = blanks' ∧ rest = rest' := by
  have sameName : name = name' := head.name_eq.1.symm.trans other.name_eq.1
  have sameAfter : '(' :: rest = '(' :: rest' := head.rest_eq.symm.trans other.rest_eq
  have sameBlanks := head.name_eq.2.symm.trans other.name_eq.2
  rw [sameAfter] at sameBlanks
  exact ⟨sameName, List.append_cancel_right sameBlanks, (List.cons.inj sameAfter).2⟩

/-- What is read at a text depends on how its parentheses close, and on the name. -/
theorem callAt? (head : Head t name blanks rest) :
    callAt? t = if String.ofList name ∈ callKeywords then none
      else (closing? ('(' :: rest)).map fun close =>
        (String.ofList name, (('(' :: rest).take close).drop 1) := by
  obtain ⟨c, more, rfl, starts⟩ := head.starts
  have whole : t = c :: (more ++ (blanks ++ '(' :: rest)) := head.parts
  have inFirst := inName_of_startsName starts
  have name := head.name_eq.1
  have after := head.rest_eq
  rw [whole, List.takeWhile_cons_of_pos inFirst, List.cons.injEq] at name
  rw [whole, List.dropWhile_cons_of_pos inFirst] at after
  rw [whole, JavaSurvey.callAt?, if_pos starts]
  simp only [name.2, after]
  split
  · next opened => rw [if_neg opened.2]
  · next noCall => rw [if_pos (by simpa using noCall)]

end Head

/-- A call has a name, blanks and a parenthesis before its arguments. -/
theorem exists_head_of_callAt? {t : Text} {call : String × Text} (found : callAt? t = some call) :
    ∃ name blanks rest, Head t name blanks rest := by
  obtain ⟨c, more, rest, close, rfl, starts, -, after, -⟩ := callAt?_inv found
  refine ⟨c :: more.takeWhile inName, (more.dropWhile inName).takeWhile Text.isBlank, rest, ?_,
    ⟨c, _, rfl, starts⟩, ?_, fun d member => List.mem_takeWhile_imp member⟩
  · rw [← after, List.takeWhile_append_dropWhile, List.cons_append,
      List.takeWhile_append_dropWhile]
  · intro d member
    rcases List.mem_cons.mp member with rfl | later
    · exact inName_of_startsName starts
    · exact List.mem_takeWhile_imp later

/-! ## Calls by their offsets -/

/-- A call of a text: its name goes from `start` to `stop`, as far as a name can go and not in the
middle of one, and is no keyword. Only blanks are between the name and the parenthesis at `first`,
which is closed at `last`. -/
structure CallBetween (t : Text) (start stop first last : Nat) : Prop where
  starts : ∃ c, t[start]? = some c ∧ startsName c = true
  apart : start = 0 ∨ ∃ c, t[start - 1]? = some c ∧ inName c = false
  ordered : start ≤ stop ∧ stop ≤ first
  named : ∀ c ∈ Text.slice t start stop, inName c = true
  maximal : ∀ c, t[stop]? = some c → inName c = false
  blank : ∀ c ∈ Text.slice t stop first, Text.isBlank c = true
  opens : t[first]? = some '('
  notKeyword : String.ofList (Text.slice t start stop) ∉ callKeywords
  closes : closingParenthesis? t first = some last

/-- The site of a call in a text that stands at offset `base` of its file. -/
def siteBetween (lines : LineIndex) (base : Int) (t : Text) (start stop first last : Nat) :
    CallSite where
  name := String.ofList (Text.slice t start stop)
  arguments := countArguments (Text.slice t (first + 1) last)
  offset := base + start
  line := lines.lineOf (base + start)

theorem nameEnds_iff {before after : Text} :
    NameEnds false before ↔ before.length = 0 ∨
      ∃ c, (before ++ after)[before.length - 1]? = some c ∧ inName c = false := by
  unfold NameEnds
  rcases List.eq_nil_or_concat before with rfl | ⟨front, c, rfl⟩
  · simp
  · simp

/-- A parenthesis that is closed has arguments before the one that closes it. -/
theorem exists_arguments {rest : Text} {close : Nat}
    (closed : closing? ('(' :: rest) = some close) :
    ∃ arguments after, rest = arguments ++ after ∧ close = arguments.length + 1 := by
  rw [closing?, closingFrom_opening] at closed
  obtain ⟨j, inRest, rfl⟩ := Option.map_eq_some_iff.mp closed
  have bounded := (closingFrom_append inRest []).1
  refine ⟨rest.take j, rest.drop j, (List.take_append_drop j rest).symm, ?_⟩
  rw [List.length_take, Nat.min_eq_left (Nat.le_of_lt bounded)]

/-- The pieces of a text with a call in it: what is before the call, its name, the blanks, the
arguments, and what is after them. -/
structure CallPieces (before name blanks arguments after : Text) : Prop where
  apart : NameEnds false before
  starts : ∃ c more, name = c :: more ∧ startsName c = true
  named : ∀ c ∈ name, inName c = true
  blank : ∀ c ∈ blanks, Text.isBlank c = true
  notKeyword : String.ofList name ∉ callKeywords
  closes : closing? ('(' :: (arguments ++ after)) = some (arguments.length + 1)

namespace CallPieces

variable {before name blanks arguments after : Text}

/-- The text of the pieces. -/
abbrev text (before name blanks arguments after : Text) : Text :=
  before ++ (name ++ (blanks ++ '(' :: (arguments ++ after)))

theorem drop_stop : (text before name blanks arguments after).drop (before ++ name).length =
    blanks ++ '(' :: (arguments ++ after) := by
  rw [text, ← List.append_assoc, List.drop_left]

theorem drop_first : (text before name blanks arguments after).drop
    (before ++ name ++ blanks).length = '(' :: (arguments ++ after) := by
  rw [text, ← List.append_assoc, ← List.append_assoc, List.drop_left]

theorem slice_name : Text.slice (text before name blanks arguments after) before.length
    (before ++ name).length = name := by
  rw [Text.slice_natCast, text, List.drop_left, List.length_append, Nat.add_sub_cancel_left,
    List.take_left]

theorem slice_blanks : Text.slice (text before name blanks arguments after) (before ++ name).length
    (before ++ name ++ blanks).length = blanks := by
  have length : (before ++ name ++ blanks).length - (before ++ name).length = blanks.length :=
    Nat.sub_eq_of_eq_add' List.length_append
  rw [Text.slice_natCast, drop_stop, length, List.take_left]

theorem slice_arguments : Text.slice (text before name blanks arguments after)
    ((before ++ name ++ blanks).length + 1)
    ((before ++ name ++ blanks).length + (arguments.length + 1) : Nat) = arguments := by
  have start : ((before ++ name ++ blanks).length : Int) + 1 =
      ((before ++ name ++ blanks).length + 1 : Nat) := rfl
  rw [start, Text.slice_natCast, ← List.drop_drop, drop_first, Nat.add_sub_add_left,
    Nat.add_sub_cancel, List.drop_one, List.tail_cons, List.take_left]

theorem head (pieces : CallPieces before name blanks arguments after) :
    Head (name ++ (blanks ++ '(' :: (arguments ++ after))) name blanks (arguments ++ after) :=
  ⟨rfl, pieces.starts, pieces.named, pieces.blank⟩

theorem callAt? (pieces : CallPieces before name blanks arguments after) :
    callAt? (name ++ (blanks ++ '(' :: (arguments ++ after))) =
      some (String.ofList name, arguments) := by
  rw [pieces.head.callAt?, if_neg pieces.notKeyword, pieces.closes, Option.map_some,
    List.take_succ_cons, List.take_left, List.drop_one, List.tail_cons]

/-- The pieces make a call. -/
theorem between (pieces : CallPieces before name blanks arguments after) :
    CallBetween (text before name blanks arguments after) before.length (before ++ name).length
      (before ++ name ++ blanks).length
      ((before ++ name ++ blanks).length + (arguments.length + 1)) := by
  constructor
  · obtain ⟨c, more, rfl, starts⟩ := pieces.starts
    exact ⟨c, by simp [text], starts⟩
  · exact nameEnds_iff.mp pieces.apart
  · simp only [List.length_append]
    omega
  · rw [slice_name]
    exact pieces.named
  · intro c next
    obtain ⟨d, more, afterName, ends⟩ := nameEnds_blanks pieces.blank (arguments ++ after)
    rw [← List.head?_drop, drop_stop, afterName] at next
    cases next
    exact ends
  · rw [slice_blanks]
    exact pieces.blank
  · rw [← List.head?_drop, drop_first, List.head?_cons]
  · rw [slice_name]
    exact pieces.notKeyword
  · rw [closingParenthesis?, drop_first, pieces.closes, Option.map_some]

end CallPieces

/-- Each call of a text falls into its pieces. -/
theorem CallBetween.pieces {t : Text} {start stop first last : Nat}
    (call : CallBetween t start stop first last) :
    ∃ before name blanks arguments after, CallPieces before name blanks arguments after ∧
      t = CallPieces.text before name blanks arguments after ∧ start = before.length ∧
      stop = (before ++ name).length ∧ first = (before ++ name ++ blanks).length ∧
      last = (before ++ name ++ blanks).length + (arguments.length + 1) := by
  obtain ⟨bounded, isOpening⟩ := List.getElem?_eq_some_iff.mp call.opens
  obtain ⟨ordered, ordered'⟩ := call.ordered
  obtain ⟨close, closes, rfl⟩ := Option.map_eq_some_iff.mp call.closes
  have fromFirst : t.drop first = '(' :: t.drop (first + 1) := by
    rw [List.drop_eq_getElem_cons bounded, isOpening]
  rw [fromFirst] at closes
  obtain ⟨arguments, after, inside, rfl⟩ := exists_arguments closes
  rw [inside] at fromFirst closes
  have fromStop := Text.drop_eq_slice_append t ordered'
  have fromStart := Text.drop_eq_slice_append t ordered
  rw [fromFirst] at fromStop
  rw [fromStop] at fromStart
  have whole := List.take_append_drop start t
  rw [fromStart] at whole
  have startLength : (t.take start).length = start := by
    rw [List.length_take]
    omega
  have stopLength : (t.take start ++ Text.slice t start stop).length = stop := by
    rw [List.length_append, Text.slice_natCast, startLength, List.length_take, List.length_drop]
    omega
  have firstLength :
      (t.take start ++ Text.slice t start stop ++ Text.slice t stop first).length = first := by
    rw [List.length_append, stopLength, Text.slice_natCast, List.length_take, List.length_drop]
    omega
  refine ⟨t.take start, Text.slice t start stop, Text.slice t stop first, arguments, after,
    ⟨?_, ?_, call.named, call.blank, call.notKeyword, closes⟩, whole.symm, startLength.symm,
    stopLength.symm, firstLength.symm, by rw [firstLength]⟩
  · rw [nameEnds_iff, whole, startLength]
    exact call.apart
  · obtain ⟨c, isFirst, starts⟩ := call.starts
    have inFirst := inName_of_startsName starts
    rw [← List.head?_drop, fromStart] at isFirst
    cases name : Text.slice t start stop with
    | nil =>
      -- A name without characters would end before a character that goes on with it.
      rw [name, List.nil_append, ← fromStop, List.head?_drop] at isFirst
      rw [call.maximal c isFirst] at inFirst
      cases inFirst
    | cons d more =>
      rw [name] at isFirst
      cases isFirst
      exact ⟨c, more, rfl, starts⟩

/-! ## The scan -/

/-- The sites found in a text are the calls of the text. -/
theorem mem_scanCalls_iff {lines : LineIndex} {base : Int} {t : Text} {s : CallSite} :
    s ∈ scanCalls lines base t ↔ ∃ start stop first last,
      CallBetween t start stop first last ∧ s = siteBetween lines base t start stop first last := by
  rw [scanCalls, mem_scanFrom_iff]
  constructor
  · rintro ⟨before, after, name, found, rfl, apart, call, rfl⟩
    obtain ⟨run, blanks, rest, head⟩ := exists_head_of_callAt? call
    have inversion := head.callAt?
    rw [call] at inversion
    split at inversion
    · cases inversion
    · next notKeyword =>
      obtain ⟨close, closes, -⟩ := Option.map_eq_some_iff.mp inversion.symm
      obtain ⟨arguments, afterwards, rfl, rfl⟩ := exists_arguments closes
      have pieces : CallPieces before run blanks arguments afterwards :=
        ⟨apart, head.starts, head.named, head.blank, notKeyword, closes⟩
      obtain rfl := head.parts
      rw [pieces.callAt?] at call
      cases call
      refine ⟨_, _, _, _, pieces.between, ?_⟩
      rw [siteBetween, CallPieces.slice_name, CallPieces.slice_arguments]
  · rintro ⟨start, stop, first, last, call, rfl⟩
    obtain ⟨before, name, blanks, arguments, after, pieces, rfl, rfl, rfl, rfl, rfl⟩ := call.pieces
    refine ⟨before, _, _, _, rfl, pieces.apart, pieces.callAt?, ?_⟩
    rw [siteBetween, CallPieces.slice_name, CallPieces.slice_arguments]

/-- The sites of a text come in the order of their offsets. -/
theorem scanFrom_sorted (lines : LineIndex) (offset : Int) (joined : Bool) (t : Text) :
    ((scanFrom lines offset joined t).map CallSite.offset).Pairwise (· < ·) := by
  induction t generalizing offset joined with
  | nil => exact List.Pairwise.nil
  | cons c rest ih =>
    simp only [scanFrom]
    split
    · rw [List.map_cons, List.pairwise_cons]
      refine ⟨?_, ih _ _⟩
      intro later listed
      obtain ⟨s, found, rfl⟩ := List.mem_map.mp listed
      obtain ⟨before, -, -, -, place, -⟩ := mem_scanFrom found
      show offset < s.offset
      omega
    · exact ih _ _

/-! ## A search that goes on behind each match -/

/-- A place at which a name, blanks and a parenthesis are found, with what is after them. -/
structure Match where
  offset : Int
  name : Text
  rest : Text

/-- The call site at a match, unless its name is a keyword or its parenthesis is not closed. -/
def Match.site? (lines : LineIndex) (m : Match) : Option CallSite :=
  if String.ofList m.name ∈ callKeywords then none
  else (closing? ('(' :: m.rest)).map fun close =>
    ⟨String.ofList m.name, countArguments ((('(' :: m.rest).take close).drop 1), m.offset,
      lines.lineOf m.offset⟩

/-- The matches of a text that stands at `offset`, one after the other: a character at which there
is none is passed over, and after a match the search goes on behind its parenthesis. -/
inductive Search : Int → Bool → Text → List Match → Prop
  | done {offset : Int} {joined : Bool} : Search offset joined [] []
  | pass {offset : Int} {joined : Bool} {c : Char} {rest : Text} {found : List Match}
      (noMatch : joined = true ∨ ∀ name blanks after, ¬ Head (c :: rest) name blanks after)
      (later : Search (offset + 1) (inName c) rest found) : Search offset joined (c :: rest) found
  | hit {offset : Int} {t name blanks rest : Text} {found : List Match}
      (head : Head t name blanks rest)
      (later : Search (offset + (name ++ blanks).length + 1) false rest found) :
      Search offset false t (⟨offset, name, rest⟩ :: found)

theorem scanFrom_cons_of_none {lines : LineIndex} {offset : Int} {joined : Bool} {c : Char}
    {rest : Text} (noCall : joined = true ∨ callAt? (c :: rest) = none) :
    scanFrom lines offset joined (c :: rest) = scanFrom lines (offset + 1) (inName c) rest := by
  rw [scanFrom_cons]
  rcases noCall with rfl | noCall
  · rfl
  · rw [noCall, ite_self]
    rfl

/-- Nothing is found inside a name. -/
theorem scanFrom_inName (lines : LineIndex) (offset : Int) {name : Text}
    (named : ∀ c ∈ name, inName c = true) (rest : Text) :
    scanFrom lines offset true (name ++ rest) =
      scanFrom lines (offset + name.length) true rest := by
  induction name generalizing offset with
  | nil => simp
  | cons c name ih =>
    rw [List.cons_append, scanFrom_cons_of_none (.inl rfl), named c List.mem_cons_self,
      ih _ fun d member => named d (List.mem_cons_of_mem _ member), List.length_cons,
      Int.natCast_succ, Int.add_assoc, Int.add_comm 1]

theorem callAt?_of_not_starts {c : Char} (noStart : startsName c = false) (rest : Text) :
    callAt? (c :: rest) = none := by
  simp [callAt?, noStart]

/-- Nothing is found from the blanks after a name on, up to the parenthesis. -/
theorem scanFrom_blanks (lines : LineIndex) (offset : Int) (joined : Bool) {blanks : Text}
    (blank : ∀ c ∈ blanks, Text.isBlank c = true) (rest : Text) :
    scanFrom lines offset joined (blanks ++ '(' :: rest) =
      scanFrom lines (offset + blanks.length + 1) false rest := by
  induction blanks generalizing offset joined with
  | nil =>
    have ends : inName '(' = false := by decide
    have noCall := callAt?_of_not_starts (c := '(') (by decide) rest
    rw [List.nil_append, scanFrom_cons_of_none (.inr noCall), ends]
    simp
  | cons c blanks ih =>
    have noStart : startsName c = false := by
      cases starts : startsName c with
      | false => rfl
      | true =>
        have ends := inName_of_isBlank (blank c List.mem_cons_self)
        rw [inName_of_startsName starts] at ends
        cases ends
    rw [List.cons_append, scanFrom_cons_of_none (.inr (callAt?_of_not_starts noStart _)),
      ih _ _ fun d member => blank d (List.mem_cons_of_mem _ member), List.length_cons,
      Int.natCast_succ, Int.add_assoc offset 1, Int.add_comm 1]

/-- After a match the scan finds nothing before the end of the match. -/
theorem Head.scanFrom_eq {t name blanks rest : Text} (head : Head t name blanks rest)
    (lines : LineIndex) (offset : Int) :
    scanFrom lines offset false t = ((Match.mk offset name rest).site? lines).toList ++
      scanFrom lines (offset + (name ++ blanks).length + 1) false rest := by
  obtain ⟨c, more, rfl, starts⟩ := head.starts
  have whole : t = c :: (more ++ (blanks ++ '(' :: rest)) := head.parts
  have later : scanFrom lines (offset + 1) (inName c) (more ++ (blanks ++ '(' :: rest)) =
      scanFrom lines (offset + (c :: more ++ blanks).length + 1) false rest := by
    rw [inName_of_startsName starts,
      scanFrom_inName _ _ fun d member => head.named d (List.mem_cons_of_mem _ member),
      scanFrom_blanks _ _ _ head.blank]
    congr 1
    simp only [List.length_append, List.length_cons]
    omega
  have call := head.callAt?
  rw [whole] at call ⊢
  rw [scanFrom_cons, later, if_neg Bool.false_ne_true, call, Match.site?]
  split
  · rfl
  · rw [Option.map_map]
    rfl

theorem Search.scanFrom_eq {offset : Int} {joined : Bool} {t : Text} {found : List Match}
    (search : Search offset joined t found) (lines : LineIndex) :
    scanFrom lines offset joined t = found.filterMap (Match.site? lines) := by
  induction search with
  | done => rfl
  | pass noMatch later ih =>
    rw [scanFrom_cons_of_none, ih]
    refine noMatch.imp_right fun noHead => ?_
    rw [Option.eq_none_iff_forall_ne_some]
    intro call found
    obtain ⟨name, blanks, rest, head⟩ := exists_head_of_callAt? found
    exact noHead name blanks rest head
  | hit head later ih =>
    rw [head.scanFrom_eq, ih, List.filterMap_cons]
    cases Match.site? lines _ <;> rfl

theorem Search.unique {offset : Int} {joined : Bool} {t : Text} {found other : List Match}
    (search : Search offset joined t found) (again : Search offset joined t other) :
    found = other := by
  induction search generalizing other with
  | done =>
    cases again with
    | done => rfl
    | hit head _ => exact absurd rfl head.ne_nil
  | pass noMatch later ih =>
    cases again with
    | pass _ laterToo => exact ih laterToo
    | hit head _ => exact absurd head (noMatch.resolve_left Bool.false_ne_true _ _ _)
  | hit head later ih =>
    cases again with
    | done => exact absurd rfl head.ne_nil
    | pass noMatch _ => exact absurd head (noMatch.resolve_left Bool.false_ne_true _ _ _)
    | hit headToo laterToo =>
      obtain ⟨rfl, rfl, rfl⟩ := head.unique headToo
      rw [ih laterToo]

theorem exists_search (offset : Int) (joined : Bool) (t : Text) :
    ∃ found, Search offset joined t found := by
  match t with
  | [] => exact ⟨[], .done⟩
  | c :: rest =>
    by_cases noMatch : joined = true ∨ ∀ name blanks after, ¬ Head (c :: rest) name blanks after
    · obtain ⟨found, later⟩ := exists_search (offset + 1) (inName c) rest
      exact ⟨found, .pass noMatch later⟩
    · simp only [not_or, Bool.not_eq_true, not_forall, not_not] at noMatch
      obtain ⟨rfl, name, blanks, after, head⟩ := noMatch
      have shorter : after.length < (c :: rest).length := by
        rw [head.parts]
        simp only [List.length_append, List.length_cons]
        omega
      obtain ⟨found, later⟩ := exists_search (offset + (name ++ blanks).length + 1) false after
      exact ⟨_, .hit head later⟩
termination_by t.length
decreasing_by
  · exact Nat.lt_succ_self _
  · exact shorter

/-- The scan of a text finds its calls and nothing else, each once and in the order of the text. It
finds what a search for one match after the other finds, of which there is only one. -/
theorem scanCalls_exact (lines : LineIndex) (base : Int) (t : Text) :
    ((scanCalls lines base t).map CallSite.offset).Pairwise (· < ·) ∧
    (∀ s, s ∈ scanCalls lines base t ↔ ∃ start stop first last,
      CallBetween t start stop first last ∧
        s = siteBetween lines base t start stop first last) ∧
    ∃ found, (∀ other, Search base false t other ↔ other = found) ∧
      scanCalls lines base t = found.filterMap (Match.site? lines) := by
  refine ⟨scanFrom_sorted lines base false t, fun s => mem_scanCalls_iff, ?_⟩
  obtain ⟨found, search⟩ := exists_search base false t
  refine ⟨found, fun other => ⟨fun again => again.unique search, ?_⟩, search.scanFrom_eq lines⟩
  rintro rfl
  exact search

/-- A name that a letter of another alphabet goes before, a keyword, a call inside another one, and
one that is not closed. -/
example : (scanCalls #[0] 10 "éf(0) if (g(h (1, 2), $(x".toList).map (fun s => (s.name, s.offset)) =
    [("h", 22)] := by decide

end JavaSurvey
