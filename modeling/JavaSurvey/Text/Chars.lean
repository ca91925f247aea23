import JavaSurvey.Text.Basic
import JavaSurvey.Text.Table.Digit
import JavaSurvey.Text.Table.Printable
import JavaSurvey.Text.Table.Word

/-!
# Character classes

Blanks, word characters, printable characters and decimal digits, over all scripts. Each class but
the digits is a set of code points given by its boundaries.
-/

namespace JavaSurvey.Text

/-- Whether `n` lies in the set with the given increasing boundaries: membership changes at each
of them. -/
def inside : List Nat → Nat → Bool
  | [], _ => false
  | b :: rest, n => if n < b then false else !inside rest n

/-- The boundaries of the blanks. -/
def blankBounds : List Nat := [
  9, 14, 28, 33, 133, 134, 160, 161, 5760, 5761, 8192, 8203, 8232, 8234, 8239, 8240, 8287, 8288,
  12288, 12289]

/-- Whether a character is white space. -/
def isBlank (c : Char) : Bool :=
  inside blankBounds c.toNat

/-- Whether a character is a letter, a digit, another numeral or the underscore. -/
def isWord (c : Char) : Bool :=
  inside Table.wordBounds c.toNat

/-- Whether a character is shown as itself in quoted text. -/
def isPrintable (c : Char) : Bool :=
  inside Table.printableBounds c.toNat

/-- Whether a character is one of the 128 of ASCII. -/
def isAscii (c : Char) : Bool :=
  c.toNat < 128

/-- Whether a character is an ASCII letter. -/
def isLetter (c : Char) : Bool :=
  ('a' ≤ c && c ≤ 'z') || ('A' ≤ c && c ≤ 'Z')

/-- The value of a decimal digit of any script. -/
def digit? (c : Char) : Option Nat :=
  (Table.zeros.find? fun z => z ≤ c.toNat && c.toNat < z + 10).map (c.toNat - ·)

/-- A text without the blanks at its start. -/
def trimLeft (t : Text) : Text :=
  t.dropWhile isBlank

/-- A text without the blanks at its end. -/
def trimRight (t : Text) : Text :=
  (t.reverse.dropWhile isBlank).reverse

/-- A text without the blanks at its start and end. -/
def trim (t : Text) : Text :=
  trimRight (trimLeft t)

end JavaSurvey.Text
