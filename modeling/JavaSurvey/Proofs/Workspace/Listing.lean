import JavaSurvey.Proofs.Text.Slices
import JavaSurvey.Workspace.Listing
import Mathlib.Data.List.Basic

/-!
# Listed files

1. `mem_filesMatching`: a file is listed as a path to a row of names below the directory;
2. `globMatches_java`: the pattern for Java files matches the names that end with `.java`;
3. `mem_javaFiles`: a listed file with that extension is listed under the pattern for Java files,
   whichever pattern it was listed under.
-/

namespace JavaSurvey

/-! ## Patterns -/

theorem globMatches_eq (pattern name : String) :
    globMatches pattern name = matchParts (globParts 0 pattern.toList) name.toList :=
  matchRow_headD _ _

theorem matchParts_char {u t : Text} : matchParts (u.map .char) t = true ↔ t = u := by
  induction u generalizing t with
  | nil => simp [matchParts]
  | cons c u ih =>
    cases t with
    | nil => simp [matchParts]
    | cons d t =>
      simp only [List.map_cons, matchParts, GlobPart.holds, Bool.and_eq_true, beq_iff_eq, ih,
        List.cons.injEq]
      exact and_congr_left' eq_comm

/-- The pattern for Java files matches the names with that ending. -/
theorem globMatches_java {name : String} :
    globMatches "*.java" name = true ↔ ∃ stem, name.toList = stem ++ ".java".toList := by
  have parts : globParts 0 "*.java".toList = .anyText :: ".java".toList.map .char := rfl
  rw [globMatches_eq, parts, matchParts, Text.anyRest_iff]
  constructor
  · rintro ⟨stem, rest, split, matched⟩
    exact ⟨stem, by rw [split, matchParts_char.mp matched]⟩
  · rintro ⟨stem, split⟩
    exact ⟨stem, _, split, matchParts_char.mpr rfl⟩

/-- A name with the extension of Java files ends with it and the dot before it. -/
theorem ends_of_extensionOf {name : String} (java : Path.extensionOf name = "java") :
    ∃ stem, name.toList = stem ++ ".java".toList := by
  have empty : "" ≠ "java" := by decide
  simp only [Path.extensionOf] at java
  cases dot : Text.findLast? (· == '.') name.toList with
  | none =>
    rw [dot] at java
    exact absurd java empty
  | some i =>
    rw [dot] at java
    dsimp only at java
    split at java
    · obtain ⟨c, here, isDot⟩ := Text.findLast?_eq_some dot
      obtain ⟨bounded, rfl⟩ := List.getElem?_eq_some_iff.mp here
      have after : name.toList.drop (i + 1) = "java".toList := by
        rw [← java, String.toList_ofList]
      have rest : name.toList.drop i = ".java".toList := by
        rw [List.drop_eq_getElem_cons bounded, after, beq_iff_eq.mp isDot]
        rfl
      exact ⟨name.toList.take i, by rw [← rest, List.take_append_drop]⟩
    · exact absurd java empty

/-! ## Files below a directory -/

theorem ne_nil_of_mem_filesBelow {excluded : List String} {entries : List Entry}
    {names : List String} (listed : names ∈ filesBelow excluded entries) : names ≠ [] := by
  rw [filesBelow, arrange] at listed
  rcases List.mem_append.mp listed with isFile | below
  · obtain ⟨name, -, rfl⟩ := List.mem_map.mp isFile
    exact List.cons_ne_nil _ _
  · obtain ⟨branch, -, inBranch⟩ := List.mem_flatMap.mp below
    obtain ⟨rest, -, rfl⟩ := List.mem_map.mp inBranch
    exact List.cons_ne_nil _ _

section Matching

variable {w : Workspace} {root p : Path} {pattern : String} {excluded : List String}

theorem mem_filesMatching {under : Option String} :
    p ∈ w.filesMatching root pattern excluded under ↔
      ∃ entries names, w.find root = .ok (.entries entries) ∧
        names ∈ filesBelow excluded entries ∧ isWanted pattern under names = true ∧
        p = { root with parts := root.parts ++ names } := by
  unfold Workspace.filesMatching
  split
  · next entries found =>
    simp only [List.mem_map, List.mem_filter, found, Except.ok.injEq, Found.entries.injEq]
    constructor
    · rintro ⟨names, ⟨below, wanted⟩, rfl⟩
      exact ⟨entries, names, rfl, below, wanted, rfl⟩
    · rintro ⟨_, names, rfl, below, wanted, rfl⟩
      exact ⟨names, ⟨below, wanted⟩, rfl⟩
  · next none =>
    refine iff_of_false List.not_mem_nil ?_
    rintro ⟨entries, names, found, -⟩
    exact none entries found

/-- A listed file with the extension of Java files is listed as one. -/
theorem mem_javaFiles (listed : p ∈ w.filesMatching root pattern excluded)
    (java : p.extension = "java") : p ∈ w.filesMatching root "*.java" excluded := by
  obtain ⟨entries, names, found, below, -, rfl⟩ := mem_filesMatching.mp listed
  have named : names.getLast?.getD "" = (root.parts ++ names).getLast?.getD "" := by
    rw [List.getLast?_append_of_ne_nil _ (ne_nil_of_mem_filesBelow below)]
  have matched : globMatches "*.java" (names.getLast?.getD "") = true := by
    rw [named]
    exact globMatches_java.mpr (ends_of_extensionOf java)
  refine mem_filesMatching.mpr ⟨entries, names, found, below, ?_, rfl⟩
  rw [isWanted, matched, Bool.or_true, Bool.and_true]
  rfl

end Matching

end JavaSurvey
