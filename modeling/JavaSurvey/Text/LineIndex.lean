import JavaSurvey.Text.Basic

/-!
# Line index

The offsets at which the lines of a text start, and the line of an offset. Lines are numbered from
one.
-/

namespace JavaSurvey

/-- The start offsets of the lines of a text. -/
abbrev LineIndex := Array Int

namespace LineIndex

/-- The offsets right after the newlines of a text that stands at `offset`. -/
def startsFrom (offset : Int) : Text → List Int
  | [] => []
  | c :: rest =>
      if c = '\n' then (offset + 1) :: startsFrom (offset + 1) rest
      else startsFrom (offset + 1) rest

/-- The start offsets of the lines of a text: offset zero, and the one after each newline. -/
def ofText (t : Text) : LineIndex :=
  (0 :: startsFrom 0 t).toArray

/-- The number of elements up to `x`, found between `lo` and `hi` by halving. -/
def upperBound (starts : LineIndex) (x : Int) (lo hi : Nat) : Nat :=
  if lo < hi then
    let mid := (lo + hi) / 2
    match starts[mid]? with
    | some s =>
        if x < s then upperBound starts x lo mid
        else upperBound starts x (mid + 1) hi
    | none => lo
  else lo
termination_by hi - lo

/-- The line that holds an offset; what lies before the first line counts as line one. -/
def lineOf (starts : LineIndex) (offset : Int) : Int :=
  max 1 (upperBound starts offset 0 starts.size)

end LineIndex

end JavaSurvey
