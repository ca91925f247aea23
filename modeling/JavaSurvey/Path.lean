import JavaSurvey.Text.Utf8
import JavaSurvey.Text.Quoted

/-!
# Paths

A path is a row of names below a starting point. Repeated slashes, single dots and a slash at the
end say nothing and are dropped when a path is read; two dots are kept.
-/

namespace JavaSurvey

/-- Where a path starts. -/
inductive Anchor where
  /-- At the working directory. -/
  | relative
  /-- At the root. -/
  | root
  /-- At the root, written with exactly two slashes. -/
  | doubleRoot
  deriving DecidableEq, Repr

/-- A path. -/
structure Path where
  anchor : Anchor
  parts : List String
  deriving DecidableEq, Repr

namespace Path

/-- The anchor of a path as it is written. -/
def anchorOf : Text → Anchor
  | '/' :: '/' :: '/' :: _ => .root
  | '/' :: '/' :: _ => .doubleRoot
  | '/' :: _ => .root
  | _ => .relative

/-- Whether a name between two slashes says anything. -/
def isPart (name : Text) : Bool :=
  name ≠ [] ∧ name ≠ ['.']

/-- The path that a string stands for. -/
def ofString (s : String) : Path where
  anchor := anchorOf s.toList
  parts := ((s.toList.splitOn '/').filter isPart).map String.ofList

/-- The path as it is written. -/
def toString (p : Path) : String :=
  let names := String.intercalate "/" p.parts
  match p.anchor with
  | .relative => if p.parts.isEmpty then "." else names
  | .root => "/" ++ names
  | .doubleRoot => "//" ++ names

/-- The last name of a path, which is empty for a path without names. -/
def name (p : Path) : String :=
  p.parts.getLast?.getD ""

/-- The part of a file name after its last dot, which neither starts nor ends the name. -/
def extensionOf (name : String) : String :=
  let t := name.toList
  match Text.findLast? (· == '.') t with
  | some i => if 0 < i ∧ i + 1 < t.length then String.ofList (t.drop (i + 1)) else ""
  | none => ""

/-- What follows the last dot of the last name of a path. -/
def extension (p : Path) : String :=
  extensionOf p.name

/-- The names from the root to a path, seen from the working directory `cwd`; two dots take back
the name before them. -/
def resolve (cwd : List String) (p : Path) : List String :=
  let names := match p.anchor with
    | .relative => cwd ++ p.parts
    | _ => p.parts
  (names.foldl (fun up name => if name = ".." then up.tail else name :: up) []).reverse

/-- Whether a byte of an address stands for itself. -/
def isUnreserved (b : UInt8) : Bool :=
  let c := Char.ofNat b.toNat
  Text.isLetter c || c.isDigit || "_.-~/".toList.contains c

/-- A byte of an address. -/
def addressByte (b : UInt8) : Text :=
  if isUnreserved b then [Char.ofNat b.toNat]
  else '%' :: (Text.hex 2 b.toNat).map Char.toUpper

/-- The address of the file with the given names from the root. -/
def addressOf (names : List String) : String :=
  let path := "/" ++ String.intercalate "/" names
  "file://" ++ String.ofList ((Text.utf8 path.toList).flatMap addressByte)

end Path

/-- The last name of the path that a string stands for. -/
def fileName (path : String) : String :=
  (Path.ofString path).name

end JavaSurvey
