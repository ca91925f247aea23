import JavaSurvey.Proofs.Json.Grammar

/-!
# Reading JSON

A reader for the JSON grammar. It goes through a text from left to right and keeps a stack of the
lists and objects that are open.

1. `readChar_of_written`, `readString_of_written`, `readInt_of_numeral`: characters, strings and
   numbers are read as the grammar has them, whatever stands after them;
2. `Written.completes`: so is every phrase, from each state in which it may come;
3. `read_of_denotes`: so is a whole text, and `Denotes.unique`: a text stands for one value at most.
-/

namespace JavaSurvey.Json

/-! ## Strings -/

/-- Reads a UTF-16 unit. -/
def readUnit (t : Text) : Option (Nat × Text) :=
  (unit? (t.take 4)).map (·, t.drop 4)

/-- Reads the second unit of a pair, after the first. -/
def readLow (high : Nat) : Text → Option (Char × Text)
  | a :: b :: rest =>
      if a = '\\' ∧ b = 'u' then
        match readUnit rest with
        | some (low, rest) =>
            if IsLow low then some (Char.ofNat (pairValue high low), rest) else none
        | none => none
      else none
  | _ => none

/-- Reads what stands after a backslash. -/
def readEscape : Text → Option (Char × Text)
  | [] => none
  | e :: rest =>
      if e = 'u' then
        match readUnit rest with
        | some (unit, rest) =>
            if IsHigh unit then readLow unit rest
            else if IsLow unit then none
            else some (Char.ofNat unit, rest)
        | none => none
      else (shortEscapes.lookup e).map (·, rest)

/-- Reads a character of a string. -/
def readChar : Text → Option (Char × Text)
  | [] => none
  | c :: rest =>
      if c = '\\' then readEscape rest
      else if 32 ≤ c.toNat then some (c, rest)
      else none

/-- Reads the characters of a string, up to its last quote. -/
def readString (t : Text) : Option (Text × Text) :=
  match t with
  | [] => none
  | c :: rest =>
      if c = '"' then some ([], rest)
      else
        match readChar (c :: rest) with
        | some (d, later) =>
            -- The text always gets shorter, but only the reader of characters knows that.
            if later.length < (c :: rest).length then
              (readString later).map fun (s, later) => (d :: s, later)
            else none
        | none => none
termination_by t.length
decreasing_by assumption

theorem length_of_unit? {t : Text} {n : Nat} (read : unit? t = some n) : t.length = 4 := by
  unfold unit? at read
  split at read
  · rfl
  · cases read

theorem readUnit_of_unit? {t : Text} {n : Nat} (digits : unit? t = some n) (rest : Text) :
    readUnit (t ++ rest) = some (n, rest) := by
  have length := length_of_unit? digits
  rw [readUnit, ← length, List.take_left, List.drop_left, digits, Option.map_some]

theorem not_surrogate (c : Char) : ¬ IsHigh c.toNat ∧ ¬ IsLow c.toNat := by
  unfold IsHigh IsLow
  have valid : c.toNat.isValidChar := c.valid
  unfold Nat.isValidChar at valid
  omega

theorem lookup_of_mem_shortEscapes {e c : Char} (listed : (e, c) ∈ shortEscapes) :
    e ≠ 'u' ∧ shortEscapes.lookup e = some c := by
  have all : shortEscapes.all
      (fun (e, c) => e ≠ 'u' ∧ shortEscapes.lookup e = some c) = true := by
    decide
  exact of_decide_eq_true (List.all_eq_true.mp all _ listed)

/-- A character is read as it is written, whatever stands after it. -/
theorem readChar_of_written {c : Char} {t : Text} (written : WrittenChar c t) (rest : Text) :
    readChar (t ++ rest) = some (c, rest) := by
  cases written with
  | plain visible noQuote noEscape => simp [readChar, visible, noEscape]
  | short listed =>
    obtain ⟨other, found⟩ := lookup_of_mem_shortEscapes listed
    simp [readChar, readEscape, other, found]
  | unit digits =>
    obtain ⟨notHigh, notLow⟩ := not_surrogate c
    simp [readChar, readEscape, readUnit_of_unit? digits, notHigh, notLow, Char.ofNat_toNat]
  | pair first second isHigh isLow value =>
    simp [readChar, readEscape, readUnit_of_unit? first, isHigh, readLow,
      readUnit_of_unit? second, isLow, ← value, Char.ofNat_toNat]

/-- What is written for a character starts with something else than a quote. -/
theorem WrittenChar.exists_cons {c : Char} {t : Text} (written : WrittenChar c t) :
    ∃ d u, t = d :: u ∧ d ≠ '"' := by
  cases written with
  | plain visible noQuote noEscape => exact ⟨c, [], rfl, noQuote⟩
  | short listed => exact ⟨_, _, rfl, by decide⟩
  | unit digits => exact ⟨_, _, rfl, by decide⟩
  | pair => exact ⟨_, _, rfl, by decide⟩

/-- A string is read as it is written, up to its last quote. -/
theorem readString_of_written {s t : Text} (written : WrittenChars s t) (rest : Text) :
    readString (t ++ '"' :: rest) = some (s, rest) := by
  induction written with
  | nil => simp [readString]
  | @cons c s t u first later ih =>
    have read := readChar_of_written first (u ++ '"' :: rest)
    obtain ⟨d, more, rfl, noQuote⟩ := first.exists_cons
    have shorter : (u ++ '"' :: rest).length < (d :: (more ++ (u ++ '"' :: rest))).length := by
      simp only [List.length_cons, List.length_append]
      omega
    rw [List.cons_append] at read
    rw [List.append_assoc, List.cons_append, readString, if_neg noQuote, read]
    dsimp only
    rw [if_pos shorter, ih]
    rfl

/-! ## Numbers -/

instance (t : Text) : Decidable (Digits t) :=
  decidable_of_iff (t ≠ [] ∧ t.all Char.isDigit = true ∧ (t.head? = some '0' → t = ['0']))
    ⟨fun ⟨a, b, c⟩ => ⟨a, List.all_eq_true.mp b, c⟩,
      fun ⟨a, b, c⟩ => ⟨a, List.all_eq_true.mpr b, c⟩⟩

/-- Reads a natural number. -/
def readNatural (t : Text) : Option (Nat × Text) :=
  let digits := t.takeWhile Char.isDigit
  if Digits digits then some (Nat.ofDigitChars 10 digits 0, t.dropWhile Char.isDigit) else none

/-- Reads an integer. -/
def readInt : Text → Option (Int × Text)
  | [] => none
  | c :: rest =>
      if c = '-' then (readNatural rest).map fun (n, rest) => (-(n : Int), rest)
      else (readNatural (c :: rest)).map fun (n, rest) => ((n : Int), rest)

/-- A text does not go on with a digit. -/
def Stops (t : Text) : Prop :=
  ∀ c ∈ t.head?, c.isDigit = false

theorem readNatural_of_digits {t rest : Text} (digits : Digits t) (stops : Stops rest) :
    readNatural (t ++ rest) = some (Nat.ofDigitChars 10 t 0, rest) := by
  have ends : rest.takeWhile Char.isDigit = [] ∧ rest.dropWhile Char.isDigit = rest := by
    cases rest with
    | nil => exact ⟨rfl, rfl⟩
    | cons c rest => simp [stops c rfl]
  unfold readNatural
  rw [List.takeWhile_append_of_pos digits.digits, List.dropWhile_append_of_pos digits.digits,
    ends.1, ends.2, List.append_nil]
  exact if_pos digits

/-- An integer is read as it is written, if no digit stands after it. -/
theorem readInt_of_numeral {n : Int} {t rest : Text} (numeral : Numeral n t) (stops : Stops rest) :
    readInt (t ++ rest) = some (n, rest) := by
  cases numeral with
  | natural digits =>
    have read := readNatural_of_digits digits stops
    obtain ⟨c, more, rfl⟩ := List.exists_cons_of_ne_nil digits.nonempty
    have noSign : c ≠ '-' := by
      rintro rfl
      exact absurd (digits.digits _ List.mem_cons_self) (by decide)
    rw [List.cons_append] at read ⊢
    rw [readInt, if_neg noSign, read, Option.map_some]
  | negative digits =>
    rw [List.cons_append, readInt, if_pos rfl, readNatural_of_digits digits stops, Option.map_some]

/-! ## Tokens -/

/-- The signs, words, numbers and strings that a JSON text is made of. -/
inductive Token where
  | openList
  | closeList
  | openObject
  | closeObject
  | comma
  | colon
  | atom (value : Json)
  | string (value : String)

/-- The signs. -/
def signs : List (Char × Token) := [
  ('[', .openList), (']', .closeList), ('\x7b', .openObject), ('\x7d', .closeObject), (',', .comma),
  (':', .colon)]

/-- The words, with their values. -/
def words : List (Text × Json) := [
  ("null".toList, .null), ("true".toList, .bool true), ("false".toList, .bool false)]

/-- Reads a word. -/
def readWord (t : Text) : Option (Json × Text) :=
  words.findSome? fun (word, value) =>
    if word.isPrefixOf t then some (value, t.drop word.length) else none

/-- Reads a token. -/
def readToken : Text → Option (Token × Text)
  | [] => none
  | c :: rest =>
      match signs.lookup c with
      | some sign => some (sign, rest)
      | none =>
          if c = '"' then (readString rest).map fun (s, rest) => (.string (String.ofList s), rest)
          else
            match readWord (c :: rest) with
            | some (value, rest) => some (.atom value, rest)
            | none => (readInt (c :: rest)).map fun (n, rest) => (.atom (.int n), rest)

theorem lookup_of_mem_signs {c : Char} {token : Token} (listed : (c, token) ∈ signs) :
    isSpace c = false ∧ signs.lookup c = some token := by
  simp only [signs, List.mem_cons, Prod.mk.injEq, List.not_mem_nil, or_false] at listed
  rcases listed with ⟨rfl, rfl⟩ | ⟨rfl, rfl⟩ | ⟨rfl, rfl⟩ | ⟨rfl, rfl⟩ | ⟨rfl, rfl⟩ | ⟨rfl, rfl⟩
  all_goals exact ⟨by decide, rfl⟩

/-- A numeral starts with a digit or the sign of a negative number. -/
theorem Numeral.exists_cons {n : Int} {t : Text} (numeral : Numeral n t) :
    ∃ c u, t = c :: u ∧ (c = '-' ∨ c.isDigit = true) := by
  cases numeral with
  | natural digits =>
    obtain ⟨c, u, rfl⟩ := List.exists_cons_of_ne_nil digits.nonempty
    exact ⟨c, u, rfl, .inr (digits.digits c List.mem_cons_self)⟩
  | negative digits => exact ⟨'-', _, rfl, .inl rfl⟩

/-- Nothing else starts like a numeral. -/
theorem only_numeral_starts {c : Char} (starts : c = '-' ∨ c.isDigit = true) :
    isSpace c = false ∧ signs.lookup c = none ∧ c ≠ '"' ∧ ∀ t, readWord (c :: t) = none := by
  have other {d : Char} (apart : (d ≠ '-' ∧ d.isDigit = false)) : c ≠ d := by
    rintro rfl
    rcases starts with sign | digit
    · exact apart.1 sign
    · rw [apart.2] at digit
      cases digit
  have signsApart : signs.all (fun sign => sign.1 ≠ '-' ∧ sign.1.isDigit = false) = true := by
    decide
  refine ⟨?_, ?_, other (by decide), ?_⟩
  · simp [isSpace, other (d := ' ') (by decide), other (d := '\t') (by decide),
      other (d := '\n') (by decide), other (d := '\r') (by decide)]
  · rw [List.lookup_eq_none_iff]
    intro sign listed
    exact bne_iff_ne.mpr (other (of_decide_eq_true (List.all_eq_true.mp signsApart sign listed)))
  · intro t
    simp [readWord, words, (other (d := 'n') (by decide)).symm, (other (d := 't') (by decide)).symm,
      (other (d := 'f') (by decide)).symm]

/-! ## Values -/

/-- A list or an object that is open: what it has so far, and the key of the value that comes. -/
inductive Frame where
  | list (items : List Json)
  | object (fields : List (String × Json)) (key : String)

/-- What may come next. -/
inductive Mode where
  /-- A value. -/
  | value
  /-- The first item of a list, or its end. -/
  | firstItem
  /-- The first key of an object, or its end. -/
  | firstKey
  /-- The next key of an object with some fields. -/
  | key (fields : List (String × Json))
  /-- The colon after a key. -/
  | colon (fields : List (String × Json)) (key : String)
  /-- What goes on after a value. -/
  | done (j : Json)

/-- What is open, the innermost first, and what may come next. -/
structure Reader where
  frames : List Frame
  mode : Mode

namespace Reader

/-- The reader after the first token of a value. -/
def begin (frames : List Frame) : Token → Option Reader
  | .atom j => some ⟨frames, .done j⟩
  | .string s => some ⟨frames, .done (.str s)⟩
  | .openList => some ⟨frames, .firstItem⟩
  | .openObject => some ⟨frames, .firstKey⟩
  | _ => none

/-- The reader after the next token. -/
def step : Reader → Token → Option Reader
  | ⟨frames, .value⟩, token => begin frames token
  | ⟨frames, .firstItem⟩, .closeList => some ⟨frames, .done (.list [])⟩
  | ⟨frames, .firstItem⟩, token => begin (.list [] :: frames) token
  | ⟨frames, .firstKey⟩, .closeObject => some ⟨frames, .done (.object [])⟩
  | ⟨frames, .firstKey⟩, .string key => some ⟨frames, .colon [] key⟩
  | ⟨frames, .key fields⟩, .string key => some ⟨frames, .colon fields key⟩
  | ⟨frames, .colon fields key⟩, .colon => some ⟨.object fields key :: frames, .value⟩
  | ⟨.list items :: frames, .done j⟩, .comma => some ⟨.list (items ++ [j]) :: frames, .value⟩
  | ⟨.list items :: frames, .done j⟩, .closeList => some ⟨frames, .done (.list (items ++ [j]))⟩
  | ⟨.object fields key :: frames, .done j⟩, .comma => some ⟨frames, .key (fields ++ [(key, j)])⟩
  | ⟨.object fields key :: frames, .done j⟩, .closeObject =>
      some ⟨frames, .done (.object (fields ++ [(key, j)]))⟩
  | _, _ => none

/-- The value that was read, when nothing is open. -/
def result? : Reader → Option Json
  | ⟨[], .done j⟩ => some j
  | _ => none

/-- Reads a text to its end. -/
def run (r : Reader) (t : Text) : Option Json :=
  match t with
  | [] => r.result?
  | c :: rest =>
      if isSpace c then r.run rest
      else
        match readToken (c :: rest) with
        | some (token, later) =>
            if later.length < (c :: rest).length then
              match r.step token with
              | some r => r.run later
              | none => none
            else none
        | none => none
termination_by t.length
decreasing_by
  · exact Nat.lt_succ_self rest.length
  · assumption

/-! ### Tokens of a text -/

/-- Blanks are passed over. -/
theorem run_blank {w : Text} (blank : Blank w) (r : Reader) (t : Text) :
    r.run (w ++ t) = r.run t := by
  induction w with
  | nil => rfl
  | cons c w ih =>
    rw [Blank, List.forall_mem_cons] at blank
    rw [List.cons_append, run, if_pos blank.1, ih blank.2]

/-- A token is read by one step. -/
theorem run_of_readToken {c : Char} {u rest : Text} {token : Token} {r next : Reader}
    (noSpace : isSpace c = false) (read : readToken (c :: (u ++ rest)) = some (token, rest))
    (step : r.step token = some next) : r.run (c :: (u ++ rest)) = next.run rest := by
  have shorter : rest.length < (c :: (u ++ rest)).length := by
    simp only [List.length_cons, List.length_append]
    omega
  rw [run, if_neg (Bool.eq_false_iff.mp noSpace), read]
  dsimp only
  rw [if_pos shorter, step]

theorem run_sign {c : Char} (token : Token) {r next : Reader} (listed : (c, token) ∈ signs)
    (step : r.step token = some next) (rest : Text) : r.run (c :: rest) = next.run rest := by
  obtain ⟨noSpace, found⟩ := lookup_of_mem_signs listed
  refine run_of_readToken (u := []) noSpace ?_ step
  rw [List.nil_append, readToken, found]

theorem run_word {t : Text} {value : Json} {r next : Reader} (listed : (t, value) ∈ words)
    (step : r.step (.atom value) = some next) (rest : Text) :
    r.run (t ++ rest) = next.run rest := by
  simp only [words, List.mem_cons, Prod.mk.injEq, List.not_mem_nil, or_false] at listed
  rcases listed with ⟨rfl, rfl⟩ | ⟨rfl, rfl⟩ | ⟨rfl, rfl⟩
  · exact run_of_readToken (u := "ull".toList) (by decide) rfl step
  · exact run_of_readToken (u := "rue".toList) (by decide) rfl step
  · exact run_of_readToken (u := "alse".toList) (by decide) rfl step

theorem run_int {n : Int} {t rest : Text} {r next : Reader} (numeral : Numeral n t)
    (stops : Stops rest) (step : r.step (.atom (.int n)) = some next) :
    r.run (t ++ rest) = next.run rest := by
  have read := readInt_of_numeral numeral stops
  obtain ⟨c, u, rfl, starts⟩ := numeral.exists_cons
  obtain ⟨noSpace, noSign, noQuote, noWord⟩ := only_numeral_starts starts
  rw [List.cons_append] at read ⊢
  refine run_of_readToken noSpace ?_ step
  rw [readToken, noSign]
  dsimp only
  rw [if_neg noQuote, noWord, read]
  rfl

theorem run_string {s : String} {t : Text} {r next : Reader} (written : WrittenString s t)
    (step : r.step (.string s) = some next) (rest : Text) :
    r.run (t ++ rest) = next.run rest := by
  cases written with
  | @quoted u chars =>
    refine run_of_readToken (by decide) ?_ step
    rw [List.append_assoc, List.singleton_append]
    show (readString (u ++ '"' :: rest)).map _ = _
    rw [readString_of_written chars, Option.map_some]
    dsimp only
    rw [String.ofList_toList]

/-! ### Phrases -/

/-- A reader takes the first token of a value inside some frames. -/
def Awaits (r : Reader) (frames : List Frame) : Prop :=
  ∀ token next, begin frames token = some next → r.step token = some next

/-- A reader takes a key of an object with some fields. -/
def AwaitsKey (r : Reader) (frames : List Frame) (fields : List (String × Json)) : Prop :=
  ∀ key, r.step (.string key) = some ⟨frames, .colon fields key⟩

theorem awaits_value (frames : List Frame) : Awaits ⟨frames, .value⟩ frames := by
  intro token next begun
  exact begun

theorem awaits_firstItem (frames : List Frame) :
    Awaits ⟨frames, .firstItem⟩ (.list [] :: frames) := by
  intro token next begun
  cases token with
  | closeList => cases begun
  | _ => exact begun

theorem awaitsKey_firstKey (frames : List Frame) : AwaitsKey ⟨frames, .firstKey⟩ frames [] := by
  intro key
  rfl

theorem awaitsKey_key (frames : List Frame) (fields : List (String × Json)) :
    AwaitsKey ⟨frames, .key fields⟩ frames fields := by
  intro key
  rfl

end Reader

open Reader

theorem stops_cons {c : Char} (noDigit : c.isDigit = false) (rest : Text) : Stops (c :: rest) := by
  intro d first
  obtain rfl : c = d := Option.some.inj first
  exact noDigit

/-- No digit comes next where blanks come first. -/
theorem Blank.stops {w rest : Text} (blank : Blank w) (stops : Stops rest) : Stops (w ++ rest) := by
  cases w with
  | nil => exact stops
  | cons c w =>
    have space := blank c List.mem_cons_self
    simp only [isSpace, Bool.or_eq_true, beq_iff_eq] at space
    refine stops_cons ?_ (w ++ rest)
    rcases space with ((rfl | rfl) | rfl) | rfl
    all_goals decide

/-- A reader that takes a phrase gets through it: it has then the value, or the list or object
that the phrase completes. -/
def Phrase.Completes : Phrase → Text → Prop
  | .value j, t | .padded j, t => ∀ (r : Reader) frames rest, r.Awaits frames → Stops rest →
      r.run (t ++ rest) = Reader.run ⟨frames, .done j⟩ rest
  | .items js, t => ∀ (r : Reader) frames items rest, r.Awaits (.list items :: frames) →
      r.run (t ++ ']' :: rest) = Reader.run ⟨frames, .done (.list (items ++ js))⟩ rest
  | .field (key, j), t => ∀ (r : Reader) frames fields rest, r.AwaitsKey frames fields →
      Stops rest → r.run (t ++ rest) = Reader.run ⟨.object fields key :: frames, .done j⟩ rest
  | .fields fs, t => ∀ (r : Reader) frames fields rest, r.AwaitsKey frames fields →
      r.run (t ++ '\x7d' :: rest) = Reader.run ⟨frames, .done (.object (fields ++ fs))⟩ rest

theorem completes_word {t : Text} {j : Json} (listed : (t, j) ∈ words) :
    (Phrase.value j).Completes t := by
  intro r frames rest awaits _
  exact run_word listed (awaits _ _ rfl) rest

/-- What is written for a phrase is read as this phrase. -/
theorem Written.completes {phrase : Phrase} {t : Text} (written : Written phrase t) :
    phrase.Completes t := by
  induction written with
  | null => exact completes_word (by simp [words])
  | true => exact completes_word (by simp [words])
  | false => exact completes_word (by simp [words])
  | int numeral =>
    intro r frames rest awaits stops
    exact run_int numeral stops (awaits _ _ rfl)
  | str quoted =>
    intro r frames rest awaits stops
    exact run_string quoted (awaits _ _ rfl) rest
  | @emptyList w blank =>
    intro r frames rest awaits _
    rw [List.cons_append, List.append_assoc, List.singleton_append]
    rw [run_sign .openList (by simp [signs]) (awaits _ _ rfl), run_blank blank]
    exact run_sign .closeList (by simp [signs]) rfl rest
  | @list js t items ih =>
    intro r frames rest awaits _
    rw [List.cons_append, List.append_assoc, List.singleton_append]
    rw [run_sign .openList (by simp [signs]) (awaits _ _ rfl)]
    exact ih _ frames [] rest (awaits_firstItem frames)
  | @emptyObject w blank =>
    intro r frames rest awaits _
    rw [List.cons_append, List.append_assoc, List.singleton_append]
    rw [run_sign .openObject (by simp [signs]) (awaits _ _ rfl), run_blank blank]
    exact run_sign .closeObject (by simp [signs]) rfl rest
  | @object fs t fields ih =>
    intro r frames rest awaits _
    rw [List.cons_append, List.append_assoc, List.singleton_append]
    rw [run_sign .openObject (by simp [signs]) (awaits _ _ rfl)]
    exact ih _ frames [] rest (awaitsKey_firstKey frames)
  | @padded j w t v before value after ih =>
    intro r frames rest awaits stops
    rw [List.append_assoc, List.append_assoc, run_blank before]
    rw [ih r frames (v ++ rest) awaits (after.stops stops), run_blank after]
  | @lastItem j t item ih =>
    intro r frames items rest awaits
    rw [ih r _ (']' :: rest) awaits (stops_cons (by decide) rest)]
    exact run_sign .closeList (by simp [signs]) rfl rest
  | @items j js t u item later ihItem ihLater =>
    intro r frames items rest awaits
    rw [List.append_assoc, List.cons_append]
    rw [ihItem r _ _ awaits (stops_cons (by decide) _)]
    rw [run_sign .comma (by simp [signs]) rfl]
    rw [ihLater _ frames (items ++ [j]) rest (awaits_value _), List.append_assoc,
      List.singleton_append]
  | @field key j w t v u before name after value ih =>
    intro r frames fields rest awaits stops
    simp only [List.append_assoc, List.cons_append]
    rw [run_blank before, run_string name (awaits key), run_blank after]
    rw [run_sign .colon (by simp [signs]) rfl]
    exact ih _ _ rest (awaits_value _) stops
  | @lastField f t field ih =>
    intro r frames fields rest awaits
    rw [ih r frames fields ('\x7d' :: rest) awaits (stops_cons (by decide) rest)]
    exact run_sign .closeObject (by simp [signs]) rfl rest
  | @fields f fs t u field later ihField ihLater =>
    intro r frames fields rest awaits
    rw [List.append_assoc, List.cons_append]
    rw [ihField r frames fields _ awaits (stops_cons (by decide) _)]
    rw [run_sign .comma (by simp [signs]) rfl]
    rw [ihLater _ frames (fields ++ [f]) rest (awaitsKey_key _ _), List.append_assoc,
      List.singleton_append]

/-- Reads the value that a text stands for. -/
def read (t : Text) : Option Json :=
  Reader.run ⟨[], .value⟩ t

/-- A text that stands for a value is read as this value. -/
theorem read_of_denotes {t : Text} {j : Json} (denotes : Denotes t j) : read t = some j := by
  have completed := denotes.completes ⟨[], .value⟩ [] [] (awaits_value []) (by simp [Stops])
  rw [List.append_nil] at completed
  rw [read, completed, Reader.run]
  rfl

/-- A text stands for one value at most. -/
theorem Denotes.unique {t : Text} {i j : Json} (denotes : Denotes t i) (other : Denotes t j) :
    i = j := by
  have readTwice := (read_of_denotes denotes).symm.trans (read_of_denotes other)
  exact Option.some.inj readTwice

end JavaSurvey.Json
