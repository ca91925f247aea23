import JavaSurvey.Failure
import JavaSurvey.Text.Chars
import JavaSurvey.Text.Utf8

/-!
# Byte map

Concrete trees count bytes and everything else counts characters. The byte map gives the offset of
the character that holds each byte, and the length of the text for the byte after the last. A text
of ASCII characters needs none, since each of them is one byte.
-/

namespace JavaSurvey

/-- The table of a text whose first character has offset `i`. -/
def byteTable (i : Nat) : Text → List Nat
  | [] => [i]
  | c :: rest => List.replicate c.utf8Size i ++ byteTable (i + 1) rest

/-- The byte map of a text, absent when bytes and characters have the same offsets. -/
def byteMap? (source : Text) : Option (List Nat) :=
  if source.all Text.isAscii then none else some (byteTable 0 source)

/-- A source, with its bytes and its byte map. -/
structure Encoded where
  bytes : List UInt8
  map? : Option (Array Nat)

namespace Encoded

/-- The encoded form of a source. -/
def ofText (source : Text) : Encoded where
  bytes := Text.utf8 source
  map? := (byteMap? source).map List.toArray

/-- The offset of the character that holds a byte. -/
def charOffset (src : Encoded) (byte : Int) : Except Failure Int :=
  match src.map? with
  | none => .ok byte
  | some table =>
      let place := if byte < 0 then byte + table.size else byte
      if place < 0 then .error .outOfRange
      else
        match table[place.toNat]? with
        | some offset => .ok offset
        | none => .error .outOfRange

/-- The text of the bytes from `first` up to, and without, `last`. -/
def textBetween (src : Encoded) (first last : Int) : String :=
  String.ofList (Text.ofUtf8 (Text.slice src.bytes first last))

end Encoded

end JavaSurvey
