import JavaSurvey.Text.Chars

/-!
# Counting arguments

Arguments are separated by the commas that stand in no bracket. There are four kinds of brackets,
each counted on its own; a closing bracket without an opening one is passed over.
-/

namespace JavaSurvey

/-- How many brackets of each kind are open. -/
structure Brackets where
  round : Nat := 0
  angle : Nat := 0
  square : Nat := 0
  curly : Nat := 0
  deriving DecidableEq, Repr

namespace Brackets

/-- The open brackets after a character. -/
def read (b : Brackets) (c : Char) : Brackets :=
  match c with
  | '(' => { b with round := b.round + 1 }
  | '<' => { b with angle := b.angle + 1 }
  | '[' => { b with square := b.square + 1 }
  | '\x7b' => { b with curly := b.curly + 1 }
  | ')' => { b with round := b.round - 1 }
  | '>' => { b with angle := b.angle - 1 }
  | ']' => { b with square := b.square - 1 }
  | '\x7d' => { b with curly := b.curly - 1 }
  | _ => b

/-- Whether no bracket is open. -/
def areClosed (b : Brackets) : Bool :=
  b.round == 0 && b.angle == 0 && b.square == 0 && b.curly == 0

end Brackets

/-- The number of commas that stand in no bracket. -/
def outerCommas : Brackets → Text → Nat
  | _, [] => 0
  | b, c :: rest =>
      if c = ',' ∧ b.areClosed then outerCommas b rest + 1 else outerCommas (b.read c) rest

/-- The number of arguments that a text between parentheses has; a blank one has none. -/
def countArguments (t : Text) : Nat :=
  let inner := Text.trim t
  if inner.isEmpty then 0 else outerCommas {} inner + 1

end JavaSurvey
