import JavaSurvey.Text.Basic
import JavaSurvey.Text.Table.Upper

/-!
# Upper case

Every character is mapped on its own, and may become several.
-/

namespace JavaSurvey.Text

namespace Table

/-- Whether a code point belongs to a run. -/
def CaseRun.holds (run : CaseRun) (n : Nat) : Bool :=
  run.first ≤ n && n ≤ run.last && (n - run.first) % run.step == 0

end Table

/-- The upper-case form of a character. -/
def upperChar (c : Char) : Text :=
  match Table.upperSequences.find? (·.1 == c.toNat) with
  | some (_, form) => form.map Char.ofNat
  | none =>
      match Table.upperRuns.find? (·.holds c.toNat) with
      | some run => [Char.ofNat (c.toNat + run.shift).toNat]
      | none => [c]

/-- The upper-case form of a text. -/
def upper (t : Text) : Text :=
  t.flatMap upperChar

end JavaSurvey.Text
