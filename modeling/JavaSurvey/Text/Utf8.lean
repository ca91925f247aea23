import JavaSurvey.Text.Basic

/-!
# UTF-8

Encoding a text and decoding bytes. Decoding never fails: every longest start of a character that
cannot be completed, and every byte that cannot start one, becomes a replacement character.
-/

namespace JavaSurvey.Text

/-- The bytes of a text. -/
def utf8 (t : Text) : List UInt8 :=
  t.flatMap String.utf8EncodeChar

/-- The number of bytes of a text. -/
def utf8Size (t : Text) : Nat :=
  t.foldr (fun c size => c.utf8Size + size) 0

/-- What stands for bytes that are no character. -/
def replacement : Char := '�'

/-- The start of a character: the bits read so far, the number of bytes still owed, and the least
and the greatest value that the next one may have. -/
structure Partial where
  bits : Nat
  owed : Nat
  low : Nat
  high : Nat

/-- What is decoded from a byte between two characters, and what it starts. -/
def decodeFirst (b : Nat) : Text × Option Partial :=
  if b < 0x80 then ([Char.ofNat b], none)
  else if b < 0xC2 then ([replacement], none)
  else if b < 0xE0 then ([], some ⟨b - 0xC0, 1, 0x80, 0xBF⟩)
  else if b = 0xE0 then ([], some ⟨0, 2, 0xA0, 0xBF⟩)
  else if b = 0xED then ([], some ⟨0xD, 2, 0x80, 0x9F⟩)
  else if b < 0xF0 then ([], some ⟨b - 0xE0, 2, 0x80, 0xBF⟩)
  else if b = 0xF0 then ([], some ⟨0, 3, 0x90, 0xBF⟩)
  else if b < 0xF4 then ([], some ⟨b - 0xF0, 3, 0x80, 0xBF⟩)
  else if b = 0xF4 then ([], some ⟨4, 3, 0x80, 0x8F⟩)
  else ([replacement], none)

/-- What is decoded from a byte after the start of a character, and what is started then. -/
def decodeNext (p : Partial) (b : Nat) : Text × Option Partial :=
  if p.low ≤ b ∧ b ≤ p.high then
    let bits := 64 * p.bits + (b - 0x80)
    if p.owed ≤ 1 then ([Char.ofNat bits], none)
    else ([], some ⟨bits, p.owed - 1, 0x80, 0xBF⟩)
  else
    let (out, next) := decodeFirst b
    (replacement :: out, next)

/-- The text of the bytes that follow the start of a character, if there is one. -/
def decodeFrom : Option Partial → List UInt8 → Text
  | none, [] => []
  | some _, [] => [replacement]
  | none, b :: rest =>
      let (out, next) := decodeFirst b.toNat
      out ++ decodeFrom next rest
  | some p, b :: rest =>
      let (out, next) := decodeNext p b.toNat
      out ++ decodeFrom next rest

/-- The text of a list of bytes. -/
def ofUtf8 (bytes : List UInt8) : Text :=
  decodeFrom none bytes

/-- A text in which every line ends with a newline alone. -/
def unixLines : Text → Text
  | [] => []
  | '\r' :: '\n' :: rest => '\n' :: unixLines rest
  | '\r' :: rest => '\n' :: unixLines rest
  | c :: rest => c :: unixLines rest

end JavaSurvey.Text
