import JavaSurvey.Text.Quoted

/-!
# JSON values

Values of the JSON data format, and the text they are written as: in ASCII characters, with an
element on each line and two blanks for every level.
-/

namespace JavaSurvey

/-- A JSON value. The fields of an object keep their order. -/
inductive Json where
  | null
  | bool (value : Bool)
  | int (value : Int)
  | str (value : String)
  | list (items : List Json)
  | object (fields : List (String × Json))
  deriving Repr, Inhabited

namespace Json

/-- The escape of a UTF-16 unit. -/
def unitEscape (unit : Nat) : Text :=
  '\\' :: 'u' :: Text.hex 4 unit

/-- A character of a string: itself if it is an ASCII character that can be shown, and else an
escape. -/
def writeChar (c : Char) : Text :=
  if c = '"' then ['\\', '"']
  else if c = '\\' then ['\\', '\\']
  else if c = '\n' then ['\\', 'n']
  else if c = '\r' then ['\\', 'r']
  else if c = '\t' then ['\\', 't']
  else if c.toNat = 8 then ['\\', 'b']
  else if c.toNat = 12 then ['\\', 'f']
  else if 32 ≤ c.toNat ∧ c.toNat < 127 then [c]
  else if c.toNat < 65536 then unitEscape c.toNat
  else
    unitEscape (0xD800 + (c.toNat - 65536) / 1024) ++ unitEscape (0xDC00 + (c.toNat - 65536) % 1024)

/-- A string between quotes. -/
def writeString (s : String) : Text :=
  '"' :: s.toList.flatMap writeChar ++ ['"']

/-- The start of a line at a level. -/
def newline (level : Nat) : Text :=
  '\n' :: List.replicate (2 * level) ' '

mutual

/-- A value at a level. -/
def write (level : Nat) : Json → Text
  | null => "null".toList
  | bool true => "true".toList
  | bool false => "false".toList
  | int n => (toString n).toList
  | str s => writeString s
  | list [] => ['[', ']']
  | list (x :: xs) =>
      '[' :: newline (level + 1) ++ write (level + 1) x ++ writeItems (level + 1) xs ++
        newline level ++ [']']
  | object [] => ['\x7b', '\x7d']
  | object (x :: xs) =>
      '\x7b' :: newline (level + 1) ++ writeField (level + 1) x ++ writeFields (level + 1) xs ++
        newline level ++ ['\x7d']

/-- The items of a list after the first. -/
def writeItems (level : Nat) : List Json → Text
  | [] => []
  | x :: xs => ',' :: newline level ++ write level x ++ writeItems level xs

/-- A field of an object. -/
def writeField (level : Nat) : String × Json → Text
  | (key, value) => writeString key ++ ':' :: ' ' :: write level value

/-- The fields of an object after the first. -/
def writeFields (level : Nat) : List (String × Json) → Text
  | [] => []
  | x :: xs => ',' :: newline level ++ writeField level x ++ writeFields level xs

end

/-- The text of a value. -/
def render (j : Json) : String :=
  String.ofList (write 0 j)

end Json

end JavaSurvey
