import JavaSurvey.Text.Basic

/-!
# File name patterns

In a pattern `*` stands for any characters, `?` for one, and brackets for one of those listed in
them, or for none of them after an exclamation mark. Two characters with a hyphen between them list
all from the first to the second; if the second comes before the first, they list none. A bracket
that is not closed stands for itself.

`matchParts` says which texts a pattern matches. Read as a program it tries every way to cut the
text, so `globMatches` uses `matchRow`, which goes through the text once and keeps what is known of
every rest of the pattern; `matchRow_headD` says that both agree.
-/

namespace JavaSurvey

/-- The characters from one to another. -/
structure CharRange where
  low : Char
  high : Char
  deriving DecidableEq, Repr

/-- Whether a character is in a range. -/
def CharRange.holds (r : CharRange) (c : Char) : Bool :=
  r.low ≤ c && c ≤ r.high

/-- A part of a pattern. -/
inductive GlobPart where
  | anyText
  | anyChar
  | char (c : Char)
  | oneOf (negated : Bool) (ranges : List CharRange)
  deriving Repr

namespace GlobPart

/-- Whether a part that stands for one character stands for this one. -/
def holds : GlobPart → Char → Bool
  | anyText, _ => true
  | anyChar, _ => true
  | char d, c => d == c
  | oneOf negated ranges, c => negated != ranges.any (·.holds c)

end GlobPart

/-- The pieces between the hyphens that make a range: a hyphen makes one if a character stands
before it and after it, and the character after it makes no further one. The last piece is what
comes after the last such hyphen. `before` holds the characters of the current piece, latest
first, and `free` is the number of characters that must pass before a hyphen can make a range. -/
def hyphenPieces (before : Text) (free : Nat) : Text → List Text
  | [] => [before.reverse]
  | c :: rest =>
      if c = '-' ∧ free = 0 then before.reverse :: hyphenPieces [] 2 rest
      else hyphenPieces (c :: before) (free - 1) rest

/-- The pieces, with a hyphen at the end of the list belonging to the piece before it. -/
def closePieces : List Text → List Text
  | [piece, []] => [piece ++ ['-']]
  | piece :: rest => piece :: closePieces rest
  | [] => []

/-- The pieces without the ranges that list nothing, joined from the last to the first. -/
def joinPieces (pieces : List Text) : List Text :=
  pieces.foldr
    (fun piece later =>
      match later with
      | next :: rest =>
          match piece.getLast?, next with
          | some low, high :: _ =>
              if high < low then (piece.dropLast ++ next.tail) :: rest else piece :: later
          | _, _ => piece :: later
      | [] => [piece])
    []

/-- The single characters of a piece. -/
def singles (piece : Text) : List CharRange :=
  piece.map fun c => ⟨c, c⟩

/-- What the pieces list: the characters of each, and the range between each and the next. A hyphen
with no character before it makes no range and lists itself. -/
def pieceRanges : List Text → List CharRange
  | [] => []
  | [piece] => singles piece
  | piece :: next :: rest =>
      let between := match piece.getLast?, next.head? with
        | some low, some high => ⟨low, high⟩
        | _, _ => ⟨'-', '-'⟩
      singles piece ++ between :: pieceRanges (next :: rest)

/-- The part that the characters between two brackets stand for. -/
def bracketPart (inner : Text) : GlobPart :=
  let pieces := joinPieces (closePieces (hyphenPieces [] (if inner.head? = some '!' then 2 else 1) inner))
  match pieces with
  | ('!' :: first) :: rest =>
      if first.isEmpty && rest.isEmpty then .anyChar else .oneOf true (pieceRanges (first :: rest))
  | _ => .oneOf false (pieceRanges pieces)

/-- The number of characters before the bracket that closes another. The first character, or the
one after an exclamation mark, closes nothing. -/
def bracketLength? (t : Text) : Option Nat :=
  let skipped := match t with
    | '!' :: ']' :: _ => 2
    | '!' :: _ => 1
    | ']' :: _ => 1
    | _ => 0
  let rest := t.drop skipped
  let inner := rest.takeWhile (· != ']')
  if inner.length < rest.length then some (skipped + inner.length) else none

/-- The parts of a pattern, of which `skip` characters belong to a part already read. -/
def globParts (skip : Nat) : Text → List GlobPart
  | [] => []
  | c :: rest =>
      match skip with
      | left + 1 => globParts left rest
      | 0 =>
          if c = '*' then .anyText :: globParts 0 rest
          else if c = '?' then .anyChar :: globParts 0 rest
          else if c = '[' then
            match bracketLength? rest with
            | some length => bracketPart (rest.take length) :: globParts (length + 1) rest
            | none => .char c :: globParts 0 rest
          else .char c :: globParts 0 rest

/-- Whether parts match a whole text. -/
def matchParts : List GlobPart → Text → Bool
  | [], t => t.isEmpty
  | .anyText :: parts, t => Text.anyRest (matchParts parts) t
  | _ :: _, [] => false
  | part :: parts, c :: rest => part.holds c && matchParts parts rest

/-- Whether parts, and each rest of them, match the empty text. -/
def emptyRow : List GlobPart → List Bool
  | [] => [true]
  | .anyText :: parts =>
      let later := emptyRow parts
      later.headD false :: later
  | _ :: parts => false :: emptyRow parts

/-- Whether parts, and each rest of them, match a text that starts with `c`; `row` says the same of
the text without it. -/
def nextRow (c : Char) : List GlobPart → List Bool → List Bool
  | [], _ => [false]
  | .anyText :: parts, row =>
      let later := nextRow c parts row.tail
      (later.headD false || row.headD false) :: later
  | part :: parts, row =>
      (part.holds c && row.tail.headD false) :: nextRow c parts row.tail

/-- Whether parts, and each rest of them, match a text. -/
def matchRow (parts : List GlobPart) (t : Text) : List Bool :=
  t.foldr (fun c row => nextRow c parts row) (emptyRow parts)

theorem tail_matchRow (part : GlobPart) (parts : List GlobPart) (t : Text) :
    (matchRow (part :: parts) t).tail = matchRow parts t := by
  induction t with
  | nil => cases part <;> rfl
  | cons c t ih =>
      have step : (matchRow (part :: parts) (c :: t)).tail =
          nextRow c parts (matchRow (part :: parts) t).tail := by
        cases part <;> rfl
      rw [step, ih]
      rfl

/-- The first entry of the row says whether all parts match. -/
theorem matchRow_headD (parts : List GlobPart) (t : Text) :
    (matchRow parts t).headD false = matchParts parts t := by
  induction parts generalizing t with
  | nil => cases t <;> rfl
  | cons part parts later =>
      induction t with
      | nil =>
          cases part
          case anyText => exact later []
          all_goals rfl
      | cons c t earlier =>
          have rest := tail_matchRow part parts t
          cases part
          case anyText =>
            have row : matchRow parts (c :: t) =
                nextRow c parts (matchRow (.anyText :: parts) t).tail := by
              rw [rest]
              rfl
            simp only [matchParts, Text.anyRest] at earlier ⊢
            rw [← later (c :: t), ← earlier, row]
            rfl
          all_goals
            simp only [matchParts]
            rw [← later t, ← rest]
            rfl

/-- Whether a pattern matches a whole name. -/
def globMatches (pattern name : String) : Bool :=
  (matchRow (globParts 0 pattern.toList) name.toList).headD false

end JavaSurvey
