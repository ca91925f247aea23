import JavaSurvey.Proofs.Syntax.Reading

/-!
# The first fault

Each node of a concrete tree says whether it or a node below it is a fault. The search for the first
fault relies on that: it keeps the trees still to be searched on a stack, and drops those that say
they hold none.

1. `Concrete.findFault_eq_find?`: where the nodes say the truth, nothing is lost by it;
2. `parse_reports_first_fault`: so a source is refused exactly if its tree has a fault, at the
   character that holds the first byte of the first one.
-/

namespace JavaSurvey

namespace Concrete

/-- A node says the truth about the faults in its tree. -/
def Honest (c : Concrete) : Prop :=
  c.label.hasError = true ↔ ∃ d ∈ c.preorder, d.isFault = true

instance (c : Concrete) : Decidable c.Honest :=
  inferInstanceAs (Decidable (_ ↔ _))

/-- The search that drops trees without a fault finds the first fault among all nodes, if the nodes
say the truth. -/
theorem findFault_eq_find? {stack : List Concrete} (honest : ∀ c ∈ preorderAll stack, c.Honest) :
    findFault stack = (preorderAll stack).find? isFault := by
  fun_induction findFault stack with
  | case1 => rfl
  | case2 c rest fault =>
    rw [preorderAll, preorder_eq, List.cons_append, List.find?_cons_of_pos fault]
  | case3 c rest clean enters ih =>
    have below : preorderAll (c :: rest) = c :: preorderAll (c.children ++ rest) := by
      rw [preorderAll, preorder_eq, List.cons_append, preorderAll_append]
    rw [below] at honest ⊢
    rw [List.find?_cons_of_neg clean]
    exact ih fun d member => honest d (List.mem_cons_of_mem _ member)
  | case4 c rest clean passes ih =>
    rw [preorderAll] at honest ⊢
    have truth : c.Honest := honest c (List.mem_append_left _ (by simp [preorder_eq]))
    have noFault : c.preorder.find? isFault = none := by
      rw [List.find?_eq_none]
      intro d member fault
      exact passes (truth.mpr ⟨d, member, fault⟩)
    rw [List.find?_append, noFault, Option.none_or]
    exact ih fun d member => honest d (List.mem_append_right _ member)

end Concrete

/-! ## Refusing a source -/

theorem parse_refuses_iff {source : Text} {tree : Concrete} (spans : tree.SpansWithin source) :
    (∃ offset, parse source tree = .error (.syntaxError offset)) ↔ tree.label.hasError = true := by
  constructor
  · rintro ⟨offset, refused⟩
    cases marked : tree.label.hasError with
    | true => rfl
    | false =>
      obtain ⟨root, read, -⟩ := parse_ok marked spans
      rw [read] at refused
      cases refused
  · intro marked
    exact ⟨_, parse_fault marked spans⟩

theorem parse_reads_iff {source : Text} {tree : Concrete} (spans : tree.SpansWithin source) :
    (∃ root, parse source tree = .ok root) ↔ tree.label.hasError = false := by
  constructor
  · rintro ⟨root, read⟩
    cases marked : tree.label.hasError with
    | false => rfl
    | true => exact absurd read (parse_refused source marked root)
  · intro accepted
    obtain ⟨root, read, -⟩ := parse_ok accepted spans
    exact ⟨root, read⟩

/-- Where all nodes say the truth about faults, the search for the first fault finds the first of
all nodes in order that is one. A source is refused exactly if there is one, with the offset of the
character that holds its first byte, and is read otherwise. -/
theorem parse_reports_first_fault {source : Text} {tree : Concrete}
    (spans : tree.SpansWithin source) (honest : ∀ c ∈ tree.preorder, c.Honest) :
    Concrete.findFault [tree] = tree.preorder.find? Concrete.isFault ∧
    ((∃ offset, parse source tree = .error (.syntaxError offset)) ↔
      ∃ c ∈ tree.preorder, c.isFault = true) ∧
    ((∃ root, parse source tree = .ok root) ↔ ∀ c ∈ tree.preorder, c.isFault = false) ∧
    ∀ c, tree.preorder.find? Concrete.isFault = some c → ∀ i : Nat,
      parse source tree = .error (.syntaxError i) ↔ source.HoldsByte i c.label.startByte.toNat := by
  have whole : Concrete.preorderAll [tree] = tree.preorder := by
    rw [Concrete.preorderAll, Concrete.preorderAll, List.append_nil]
  have found : Concrete.findFault [tree] = tree.preorder.find? Concrete.isFault := by
    rw [← whole] at honest ⊢
    exact Concrete.findFault_eq_find? honest
  have truth : tree.label.hasError = true ↔ ∃ c ∈ tree.preorder, c.isFault = true :=
    honest tree (by simp [Concrete.preorder_eq])
  refine ⟨found, (parse_refuses_iff spans).trans truth, ?_, ?_⟩
  · rw [parse_reads_iff spans, ← Bool.not_eq_true, truth]
    simp
  · intro c first i
    have member : c ∈ tree.preorder := List.mem_of_find?_eq_some first
    have marked : tree.label.hasError = true := truth.mpr ⟨c, member, List.find?_some first⟩
    have byte : tree.firstFaultByte = c.label.startByte := by
      rw [Concrete.firstFaultByte, found, first]
    obtain ⟨nonneg, ordered, bounded⟩ := spans c member
    rw [Text.length_utf8] at bounded
    rw [parse_fault marked spans, byte, Text.holdsByte_iff (by omega)]
    constructor
    · intro same
      cases same
      rfl
    · rintro rfl
      rfl

/-- A source whose only character is two bytes long. -/
def accentSource : Text := ['é']

/-- A token that is missing at the end of `accentSource`. -/
def missingToken : Concrete :=
  .mk { kind := ";", startByte := 2, endByte := 2, isMissing := true, hasError := true } []

/-- A tree of `accentSource` whose first branch has no fault, and whose second has one at the end of
the source, two levels down. -/
def unfinishedTree : Concrete :=
  .mk { kind := "program", startByte := 0, endByte := 2, hasError := true } [
    .mk { kind := "type", startByte := 0, endByte := 2 } [
      .mk { kind := "identifier", startByte := 0, endByte := 2 } []],
    .mk { kind := "statement", startByte := 2, endByte := 2, hasError := true } [
      .mk { kind := "expression", startByte := 2, endByte := 2 } [], missingToken]]

theorem parse_reports_first_fault_unfinishedTree :
    unfinishedTree.SpansWithin accentSource ∧ (∀ c ∈ unfinishedTree.preorder, c.Honest) ∧
      unfinishedTree.preorder.find? Concrete.isFault = some missingToken ∧
      parse accentSource unfinishedTree = .error (.syntaxError 1) := by
  have spans : unfinishedTree.SpansWithin accentSource := by decide
  have honest : ∀ c ∈ unfinishedTree.preorder, c.Honest := by decide
  have first : unfinishedTree.preorder.find? Concrete.isFault = some missingToken := rfl
  obtain ⟨-, -, -, reported⟩ := parse_reports_first_fault spans honest
  exact ⟨spans, honest, first, (reported missingToken first 1).mpr (by decide)⟩

end JavaSurvey
