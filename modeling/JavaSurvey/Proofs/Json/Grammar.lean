import JavaSurvey.Json

/-!
# The JSON grammar

The texts of a JSON value whose numbers are integers. They are told by the rules of the grammar
alone: blanks may stand around every value, every key and the signs between them, and a character
of a string may be written in several ways.

* `Numeral` and `WrittenString` are the rules for numbers and strings;
* `Written` has the rules for values, and for the items and fields inside lists and objects;
* `Denotes` is a value with blanks around it.
-/

namespace JavaSurvey.Json

/-! ## Numbers -/

/-- The digits of a natural number. The first of several is not zero. -/
structure Digits (t : Text) : Prop where
  nonempty : t ≠ []
  digits : ∀ c ∈ t, c.isDigit = true
  leading : t.head? = some '0' → t = ['0']

/-- The ways to write an integer. -/
inductive Numeral : Int → Text → Prop
  | natural {t : Text} (digits : Digits t) : Numeral (Nat.ofDigitChars 10 t 0 : Nat) t
  | negative {t : Text} (digits : Digits t) :
      Numeral (-(Nat.ofDigitChars 10 t 0 : Nat)) ('-' :: t)

/-! ## Strings -/

/-- The value of a hexadecimal digit. -/
def hexValue? (c : Char) : Option Nat :=
  if '0' ≤ c ∧ c ≤ '9' then some (c.toNat - 48)
  else if 'a' ≤ c ∧ c ≤ 'f' then some (c.toNat - 87)
  else if 'A' ≤ c ∧ c ≤ 'F' then some (c.toNat - 55)
  else none

/-- The UTF-16 unit with the given four hexadecimal digits. -/
def unit? : Text → Option Nat
  | [a, b, c, d] => do
      let a ← hexValue? a
      let b ← hexValue? b
      let c ← hexValue? c
      let d ← hexValue? d
      return ((a * 16 + b) * 16 + c) * 16 + d
  | _ => none

/-- The signs that stand for a character after a backslash. -/
def shortEscapes : List (Char × Char) := [
  ('"', '"'), ('\\', '\\'), ('/', '/'), ('b', '\x08'), ('f', '\x0c'), ('n', '\n'), ('r', '\r'),
  ('t', '\t')]

/-- Whether a UTF-16 unit is the first of a pair. -/
def IsHigh (unit : Nat) : Prop :=
  0xD800 ≤ unit ∧ unit < 0xDC00

/-- Whether a UTF-16 unit is the second of a pair. -/
def IsLow (unit : Nat) : Prop :=
  0xDC00 ≤ unit ∧ unit < 0xE000

instance (unit : Nat) : Decidable (IsHigh unit) :=
  inferInstanceAs (Decidable (_ ∧ _))

instance (unit : Nat) : Decidable (IsLow unit) :=
  inferInstanceAs (Decidable (_ ∧ _))

/-- The code point of a pair of UTF-16 units. -/
def pairValue (high low : Nat) : Nat :=
  0x10000 + (high - 0xD800) * 1024 + (low - 0xDC00)

/-- The ways to write a character in a string: as it is, by a short escape, by its UTF-16 unit, or
by a pair of them. -/
inductive WrittenChar : Char → Text → Prop
  | plain {c : Char} (visible : 32 ≤ c.toNat) (noQuote : c ≠ '"') (noEscape : c ≠ '\\') :
      WrittenChar c [c]
  | short {e c : Char} (listed : (e, c) ∈ shortEscapes) : WrittenChar c ['\\', e]
  | unit {c : Char} {t : Text} (digits : unit? t = some c.toNat) :
      WrittenChar c ('\\' :: 'u' :: t)
  | pair {c : Char} {t u : Text} {high low : Nat} (first : unit? t = some high)
      (second : unit? u = some low) (isHigh : IsHigh high) (isLow : IsLow low)
      (value : c.toNat = pairValue high low) :
      WrittenChar c ('\\' :: 'u' :: (t ++ '\\' :: 'u' :: u))

/-- The ways to write the characters of a string. -/
inductive WrittenChars : Text → Text → Prop
  | nil : WrittenChars [] []
  | cons {c : Char} {s t u : Text} (first : WrittenChar c t) (rest : WrittenChars s u) :
      WrittenChars (c :: s) (t ++ u)

/-- The ways to write a string. -/
inductive WrittenString : String → Text → Prop
  | quoted {s : String} {t : Text} (chars : WrittenChars s.toList t) :
      WrittenString s ('"' :: (t ++ ['"']))

/-! ## Values -/

/-- Whether a character may stand between the parts of a value. -/
def isSpace (c : Char) : Bool :=
  c == ' ' || c == '\t' || c == '\n' || c == '\r'

/-- A text of nothing but such characters. -/
def Blank (t : Text) : Prop :=
  ∀ c ∈ t, isSpace c = true

/-- What a text may stand for: a value alone or with blanks around it, the items of a list, or a
field or the fields of an object. -/
inductive Phrase where
  | value (j : Json)
  | padded (j : Json)
  | items (js : List Json)
  | field (f : String × Json)
  | fields (fs : List (String × Json))

/-- The ways to write a phrase. There is at least one of some items or fields. -/
inductive Written : Phrase → Text → Prop
  | null : Written (.value .null) "null".toList
  | true : Written (.value (.bool true)) "true".toList
  | false : Written (.value (.bool false)) "false".toList
  | int {n : Int} {t : Text} (numeral : Numeral n t) : Written (.value (.int n)) t
  | str {s : String} {t : Text} (quoted : WrittenString s t) : Written (.value (.str s)) t
  | emptyList {w : Text} (blank : Blank w) : Written (.value (.list [])) ('[' :: (w ++ [']']))
  | list {js : List Json} {t : Text} (items : Written (.items js) t) :
      Written (.value (.list js)) ('[' :: (t ++ [']']))
  | emptyObject {w : Text} (blank : Blank w) :
      Written (.value (.object [])) ('\x7b' :: (w ++ ['\x7d']))
  | object {fs : List (String × Json)} {t : Text} (fields : Written (.fields fs) t) :
      Written (.value (.object fs)) ('\x7b' :: (t ++ ['\x7d']))
  | padded {j : Json} {w t v : Text} (before : Blank w) (value : Written (.value j) t)
      (after : Blank v) : Written (.padded j) (w ++ (t ++ v))
  | lastItem {j : Json} {t : Text} (item : Written (.padded j) t) : Written (.items [j]) t
  | items {j : Json} {js : List Json} {t u : Text} (item : Written (.padded j) t)
      (rest : Written (.items js) u) : Written (.items (j :: js)) (t ++ ',' :: u)
  | field {key : String} {j : Json} {w t v u : Text} (before : Blank w)
      (name : WrittenString key t) (after : Blank v) (value : Written (.padded j) u) :
      Written (.field (key, j)) (w ++ (t ++ (v ++ ':' :: u)))
  | lastField {f : String × Json} {t : Text} (field : Written (.field f) t) :
      Written (.fields [f]) t
  | fields {f : String × Json} {fs : List (String × Json)} {t u : Text}
      (field : Written (.field f) t) (rest : Written (.fields fs) u) :
      Written (.fields (f :: fs)) (t ++ ',' :: u)

/-- A text stands for a value: it is the value, with blanks around it. -/
def Denotes (t : Text) (j : Json) : Prop :=
  Written (.padded j) t

end JavaSurvey.Json
