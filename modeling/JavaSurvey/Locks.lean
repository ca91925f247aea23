import JavaSurvey.Declaration
import JavaSurvey.Text.Chars
import JavaSurvey.Text.LineIndex

/-!
# Lock hazards

Calls that are risky while a lock is held. A lock is held in the braces that follow the word
`synchronized`. The text is taken as it stands, comments and literals included.

* `lockBlocks` finds the braces of every lock;
* `Hazard.occursIn` says what makes a body hazardous;
* `lockWarnings` warns of each hazard in each block.
-/

namespace JavaSurvey

/-- The offset of the brace that brings the depth back to zero, from inside `depth + 1` braces. -/
def closingBraceFrom : Nat → Text → Option Nat
  | _, [] => none
  | depth, c :: rest =>
      if c = '\x7b' then (closingBraceFrom (depth + 1) rest).map (· + 1)
      else if c = '\x7d' then
        match depth with
        | 0 => some 0
        | outer + 1 => (closingBraceFrom outer rest).map (· + 1)
      else (closingBraceFrom depth rest).map (· + 1)

/-- The word that takes a lock. -/
def lockWord : Text :=
  "synchronized".toList

/-- Whether a text starts with a word that ends there; `joined` says that the character before the
text is a word character. -/
def wordAtStart (word : Text) (joined : Bool) (t : Text) : Bool :=
  !joined && word.isPrefixOf t && !(t.drop word.length).head?.any Text.isWord

/-- The offset of a lock's word, and the offsets where its body starts and stops. -/
structure LockBlock where
  word : Nat
  bodyStart : Nat
  bodyStop : Nat
  deriving DecidableEq, Repr

/-- The block of the lock whose word starts a text that stands at `offset`. -/
def lockBlockAt? (offset : Nat) (t : Text) : Option LockBlock :=
  let after := t.drop lockWord.length
  let gap := after.takeWhile (· != '\x7b')
  match after.drop gap.length with
  | [] => none
  | _ :: inner =>
      let bodyStart := offset + lockWord.length + gap.length + 1
      (closingBraceFrom 0 inner).map fun length => ⟨offset, bodyStart, bodyStart + length⟩

/-- The lock blocks of a text that stands at `offset`. -/
def lockBlocksFrom (offset : Nat) (joined : Bool) : Text → List LockBlock
  | [] => []
  | c :: rest =>
      let later := lockBlocksFrom (offset + 1) (Text.isWord c) rest
      if wordAtStart lockWord joined (c :: rest) then
        (lockBlockAt? offset (c :: rest)).toList ++ later
      else later

/-- The lock blocks of a text, in the order of their words. -/
def lockBlocks (t : Text) : List LockBlock :=
  lockBlocksFrom 0 false t

/-- What is risky while a lock is held. -/
inductive Hazard where
  /-- A call into another process. -/
  | binderCall
  /-- A message to a handler. -/
  | posting
  /-- Another lock. -/
  | nestedLock
  deriving DecidableEq, Repr

/-- The calls that reach into another process. -/
def binderCalls : List Text :=
  ["transact".toList, "linkToDeath".toList, "asBinder".toList, "queryLocalInterface".toList]

/-- The calls that give a handler something to do. -/
def postingCalls : List Text :=
  ["post".toList, "postDelayed".toList, "sendMessage".toList, "sendMessageAtTime".toList]

/-- Whether a text starts with one of some words, followed by blanks and a parenthesis. -/
def callsOneOf (words : List Text) (t : Text) : Bool :=
  words.any fun word =>
    word.isPrefixOf t && ((t.drop word.length).dropWhile Text.isBlank).head? == some '('

namespace Hazard

/-- The hazards, in the order in which they are looked for. -/
def all : List Hazard := [binderCall, posting, nestedLock]

/-- Whether a hazard starts at the start of a text; `joined` says that the character before the
text is a word character. -/
def startsAt : Hazard → Bool → Text → Bool
  | binderCall, _, t => callsOneOf binderCalls t
  | posting, joined, t => !joined && callsOneOf postingCalls t
  | nestedLock, joined, t => wordAtStart lockWord joined t

/-- Whether a hazard starts in a text. -/
def occursFrom (h : Hazard) (joined : Bool) : Text → Bool
  | [] => false
  | c :: rest => h.startsAt joined (c :: rest) || h.occursFrom (Text.isWord c) rest

/-- Whether a text holds a hazard. -/
def occursIn (h : Hazard) (t : Text) : Bool :=
  h.occursFrom false t

/-- What is said of a hazard. -/
def message : Hazard → String
  | binderCall => "Binder call inside a lock may block other threads."
  | posting => "Posting or sending a message inside a lock can invert lock ordering."
  | nestedLock => "Nested lock blocks detected."

end Hazard

/-- A hazard in a lock block: the range from the word to the closing brace, and the word's line. -/
structure LockWarning where
  range : Span
  line : Int
  message : String
  deriving DecidableEq, Repr

/-- The warnings for one block. -/
def blockWarnings (t : Text) (lines : LineIndex) (b : LockBlock) :
    Except Failure (List LockWarning) := do
  let body := Text.slice t b.bodyStart b.bodyStop
  let range ← Span.check b.word (b.bodyStop + 1)
  return (Hazard.all.filter (·.occursIn body)).map fun h =>
    ⟨range, lines.lineOf b.word, h.message⟩

/-- The warnings for some blocks. -/
def warningsFor (t : Text) (lines : LineIndex) : List LockBlock → Except Failure (List LockWarning)
  | [] => .ok []
  | b :: rest => do
      let here ← blockWarnings t lines b
      let later ← warningsFor t lines rest
      return here ++ later

/-- The warnings for the lock blocks of a text. -/
def lockWarnings (t : Text) : Except Failure (List LockWarning) :=
  warningsFor t (LineIndex.ofText t) (lockBlocks t)

end JavaSurvey
