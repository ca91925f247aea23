/-!
# Sorting

Sorting by a key, in which elements of equal key keep the order they were given in.
-/

namespace JavaSurvey

universe u

variable {α : Type u} {κ : Type u} [LT κ] [DecidableLT κ]

/-- Puts `x` before the first element with a greater key. -/
def insertByKey (key : α → κ) (x : α) : List α → List α
  | [] => [x]
  | y :: rest => if key x < key y then x :: y :: rest else y :: insertByKey key x rest

/-- Elements in the order of their keys. -/
def sortByKey (key : α → κ) (xs : List α) : List α :=
  xs.foldl (fun sorted x => insertByKey key x sorted) []

end JavaSurvey
