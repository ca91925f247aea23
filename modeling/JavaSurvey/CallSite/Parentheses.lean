import JavaSurvey.Text.Basic

/-!
# Closing parentheses

The parenthesis that closes another. What stands in a literal between single or double quotes is
passed over, and in a literal a backslash takes the character after it along.
-/

namespace JavaSurvey

/-- The offset of the parenthesis that brings `depth` back to zero, read from inside the literal
with the given quote if there is one. -/
def closingFrom : Int → Option Char → Text → Option Nat
  | _, _, [] => none
  | depth, some quote, '\\' :: _ :: rest => (closingFrom depth (some quote) rest).map (· + 2)
  | depth, some quote, c :: rest =>
      (closingFrom depth (if c = quote then none else some quote) rest).map (· + 1)
  | depth, none, c :: rest =>
      if c = '"' ∨ c = '\'' then (closingFrom depth (some c) rest).map (· + 1)
      else if c = '(' then (closingFrom (depth + 1) none rest).map (· + 1)
      else if c = ')' then
        if depth = 1 then some 0 else (closingFrom (depth - 1) none rest).map (· + 1)
      else (closingFrom depth none rest).map (· + 1)

/-- The offset of the parenthesis that closes the one at the start of a text. -/
def closing? (t : Text) : Option Nat :=
  closingFrom 0 none t

/-- The offset of the parenthesis that closes the one at offset `first`. -/
def closingParenthesis? (t : Text) (first : Nat) : Option Nat :=
  (closing? (t.drop first)).map (first + ·)

end JavaSurvey
