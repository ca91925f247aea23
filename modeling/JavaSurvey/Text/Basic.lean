/-!
# Texts

A text is the list of its characters, so an offset counts characters. This module holds the
operations on offsets that every scanner shares: cutting a piece out of a list, looking an index
up, and finding a pattern.

An offset may be any integer. A negative one counts from the end of the list; a slice that reaches
past either end is cut there, and a look-up there has no result.
-/

namespace JavaSurvey

/-- A text is the list of its characters. -/
abbrev Text := List Char

namespace Text

universe u

variable {α : Type u}

/-- The place in a list of `length` elements that a slice bound stands for. -/
def bound (length : Nat) (i : Int) : Nat :=
  if i < 0 then (i + length).toNat else min i.toNat length

/-- The elements from offset `first` up to, and without, offset `last`. -/
def slice (xs : List α) (first last : Int) : List α :=
  let lo := bound xs.length first
  let hi := bound xs.length last
  (xs.drop lo).take (hi - lo)

/-- The element at an offset, which counts from the end when it is negative. -/
def index? (xs : List α) (i : Int) : Option α :=
  if 0 ≤ i then xs[i.toNat]?
  else if 0 ≤ i + xs.length then xs[(i + xs.length).toNat]?
  else none

/-- Whether a text or some rest of it satisfies `p`. -/
def anyRest (p : Text → Bool) : Text → Bool
  | [] => p []
  | c :: rest => p (c :: rest) || anyRest p rest

/-- The offset of the first occurrence of `pattern`. -/
def find? (pattern : Text) : Text → Option Nat
  | [] => if pattern.isEmpty then some 0 else none
  | c :: rest =>
      if pattern.isPrefixOf (c :: rest) then some 0
      else (find? pattern rest).map (· + 1)

/-- Whether `pattern` occurs in `t`. -/
def occursIn (pattern t : Text) : Bool :=
  (find? pattern t).isSome

/-- The offset of the last element that satisfies `p`. -/
def findLast? (p : α → Bool) : List α → Option Nat
  | [] => none
  | x :: rest =>
      match findLast? p rest with
      | some i => some (i + 1)
      | none => if p x then some 0 else none

/-- The lines of a text: the pieces between its newlines, of which there is at least one. -/
def lines (t : Text) : List Text :=
  t.splitOn '\n'

end Text

end JavaSurvey
