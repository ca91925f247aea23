import JavaSurvey.Text.Chars

/-!
# Reading integers

An integer is written as an optional sign and decimal digits of any script, between which single
underscores may stand. Blanks around it are ignored; the information separators U+001C to U+001F
are not blanks here.
-/

namespace JavaSurvey.Text

/-- The most digits that a number may have. -/
def maxDigits : Nat := 4300

/-- Whether a character may stand around a number. -/
def isPadding (c : Char) : Bool :=
  isBlank c && !(28 ≤ c.toNat && c.toNat ≤ 31)

/-- The values of a row of digits, in which every underscore stands between two digits. -/
def digits? : Text → Option (List Nat)
  | [] => none
  | [c] => (digit? c).map ([·])
  | c :: '_' :: rest => do
      let d ← digit? c
      let ds ← digits? rest
      return d :: ds
  | c :: d :: rest => do
      let x ← digit? c
      let xs ← digits? (d :: rest)
      return x :: xs

/-- The number with the given decimal digits. -/
def ofDigits (ds : List Nat) : Nat :=
  ds.foldl (fun n d => 10 * n + d) 0

/-- The number that an unsigned numeral stands for. -/
def natural? (t : Text) : Option Nat := do
  let ds ← digits? t
  if ds.length ≤ maxDigits then some (ofDigits ds) else none

/-- The integer that a text stands for. -/
def integer? (t : Text) : Option Int :=
  let body := ((t.dropWhile isPadding).reverse.dropWhile isPadding).reverse
  match body with
  | '-' :: rest => (natural? rest).map fun n => -(n : Int)
  | '+' :: rest => (natural? rest).map fun n => (n : Int)
  | _ => (natural? body).map fun n => (n : Int)

end JavaSurvey.Text
