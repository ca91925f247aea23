import JavaSurvey.Proofs.Order
import JavaSurvey.Proofs.Workspace.Listing
import JavaSurvey.Proofs.Workspace.Patterns

/-!
# The listing of a directory

`FileAt` says which rows of names lead to files from a directory, and `Before` which of two rows
comes first: where they part, a file comes before what is in subdirectories, and otherwise the
lesser name comes first.

1. `mem_filesBelow`: the rows that are listed are those that pass through no excluded directory;
2. `filesBelow_sorted`: each comes before those listed after it;
3. `filesMatching_exact`: the files that are listed, and that nothing else decides their order.
-/

namespace JavaSurvey

/-- A row of names leads to a file from a directory with the given entries. -/
inductive FileAt : List Entry → List String → Prop
  | here {entries : List Entry} {e : Entry} (member : e ∈ entries)
      (isFile : e.isDirectory = false) : FileAt entries [e.name]
  | inside {entries inner : List Entry} {name : String} {rest : List String}
      (member : .directory name inner ∈ entries) (later : FileAt inner rest) :
      FileAt entries (name :: rest)

/-- No two entries of a directory have one name, also in the directories below it. -/
inductive DistinctNames : List Entry → Prop
  | intro {entries : List Entry} (here : (entries.map Entry.name).Nodup)
      (below : ∀ name inner, .directory name inner ∈ entries → DistinctNames inner) :
      DistinctNames entries

/-- The order of the files below a directory. -/
inductive Before : List String → List String → Prop
  | file {name other : String} (less : name < other) : Before [name] [other]
  | fileFirst (name directory : String) {rest : List String} (below : rest ≠ []) :
      Before [name] (directory :: rest)
  | directory {name other : String} {rest rest' : List String} (less : name < other)
      (below : rest ≠ []) (below' : rest' ≠ []) : Before (name :: rest) (other :: rest')
  | inside (name : String) {rest rest' : List String} (later : Before rest rest') :
      Before (name :: rest) (name :: rest')

theorem FileAt.ne_nil {entries : List Entry} {names : List String} (file : FileAt entries names) :
    names ≠ [] := by
  cases file <;> exact List.cons_ne_nil _ _

/-! ## Which files are listed -/

theorem mem_fileNames {entries : List Entry} {name : String} :
    name ∈ fileNames entries ↔ ∃ e ∈ entries, e.isDirectory = false ∧ e.name = name := by
  simp [fileNames, and_assoc]

theorem mem_branches {excluded : List String} {entries : List Entry}
    {branch : String × List (List String)} :
    branch ∈ branches excluded entries ↔ ∃ name inner, .directory name inner ∈ entries ∧
      name ∉ excluded ∧ branch = (name, filesBelow excluded inner) := by
  induction entries with
  | nil => simp [branches]
  | cons e rest ih =>
    rw [branches, List.mem_append, ih]
    cases e with
    | file name bytes => simp [Entry.branch?]
    | link name => simp [Entry.branch?]
    | directory name inner =>
      have first : branch ∈ (Entry.branch? excluded (.directory name inner)).toList ↔
          name ∉ excluded ∧ branch = (name, filesBelow excluded inner) := by
        rw [Entry.branch?, filesBelow]
        by_cases out : name ∈ excluded <;> simp [out]
      rw [first]
      constructor
      · rintro (⟨allowed, rfl⟩ | ⟨name, inner, member, allowed, rfl⟩)
        · exact ⟨name, inner, List.mem_cons_self, allowed, rfl⟩
        · exact ⟨name, inner, List.mem_cons_of_mem _ member, allowed, rfl⟩
      · rintro ⟨name, inner, member, allowed, rfl⟩
        rcases List.mem_cons.mp member with same | later
        · cases same
          exact .inl ⟨allowed, rfl⟩
        · exact .inr ⟨name, inner, later, allowed, rfl⟩

theorem mem_arrange {files : List String} {branches : List (String × List (List String))}
    {names : List String} :
    names ∈ arrange files branches ↔ (∃ name ∈ files, names = [name]) ∨
      ∃ branch ∈ branches, ∃ rest ∈ branch.2, names = branch.1 :: rest := by
  simp only [arrange, List.mem_append, List.mem_map, List.mem_flatMap,
    (sortByKey_perm _ _).mem_iff, eq_comm]

/-- The rows that are listed lead to files and pass through no excluded directory. -/
theorem mem_filesBelow {excluded : List String} {entries : List Entry} {names : List String} :
    names ∈ filesBelow excluded entries ↔
      FileAt entries names ∧ ∀ directory ∈ names.dropLast, directory ∉ excluded := by
  -- Each name of a row leads one directory down: the induction is on the row, not on the tree.
  induction names generalizing entries with
  | nil => exact iff_of_false (fun listed => ne_nil_of_mem_filesBelow listed rfl) (·.1.ne_nil rfl)
  | cons name rest ih =>
    rw [filesBelow, mem_arrange]
    constructor
    · rintro (⟨_, isFile, same⟩ | ⟨branch, isBranch, _, listed, same⟩)
      · obtain ⟨rfl, rfl⟩ := List.cons.inj same
        obtain ⟨e, member, notDirectory, rfl⟩ := mem_fileNames.mp isFile
        exact ⟨.here member notDirectory, List.forall_mem_nil _⟩
      · obtain ⟨directory, inner, member, allowed, rfl⟩ := mem_branches.mp isBranch
        obtain ⟨rfl, rfl⟩ := List.cons.inj same
        obtain ⟨file, later⟩ := ih.mp listed
        refine ⟨.inside member file, ?_⟩
        rw [List.dropLast_cons_of_ne_nil file.ne_nil]
        exact List.forall_mem_cons.mpr ⟨allowed, later⟩
    · rintro ⟨file, allowed⟩
      cases file with
      | here member isFile => exact .inl ⟨_, mem_fileNames.mpr ⟨_, member, isFile, rfl⟩, rfl⟩
      | @inside _ inner _ _ member later =>
        rw [List.dropLast_cons_of_ne_nil later.ne_nil, List.forall_mem_cons] at allowed
        refine .inr ⟨(name, filesBelow excluded inner), ?_, rest, ih.mpr ⟨later, allowed.2⟩, rfl⟩
        exact mem_branches.mpr ⟨name, inner, member, allowed.1, rfl⟩

/-! ## Their order -/

theorem Before.asymm {names other : List String} (before : Before names other) :
    ¬ Before other names := by
  induction before with
  | file less =>
    rintro (more | ⟨_, _, below⟩ | ⟨-, below, -⟩ | ⟨_, later⟩)
    · exact Std.not_gt_of_lt less more
    · exact below rfl
    · exact below rfl
    · cases later
  | fileFirst name directory below =>
    rintro (more | ⟨_, _, below'⟩ | ⟨-, -, below'⟩ | ⟨_, later⟩)
    · exact below rfl
    · exact below rfl
    · exact below' rfl
    · cases later
  | directory less below below' =>
    rintro (more | ⟨_, _, _⟩ | ⟨more, -, -⟩ | ⟨_, later⟩)
    · exact below rfl
    · exact below' rfl
    · exact Std.not_gt_of_lt less more
    · exact Std.lt_irrefl less
  | inside name later ih =>
    rintro (more | ⟨_, _, below⟩ | ⟨more, -, -⟩ | ⟨_, earlier⟩)
    · cases later
    · cases later
    · exact Std.lt_irrefl more
    · exact ih earlier

/-- A directory is listed in order if what is below each of its subdirectories is. -/
theorem arrange_sorted {files : List String} {branches : List (String × List (List String))}
    (filesDistinct : files.Nodup) (branchesDistinct : (branches.map (·.1)).Nodup)
    (below : ∀ branch ∈ branches, branch.2.Pairwise Before ∧ ∀ rest ∈ branch.2, rest ≠ []) :
    (arrange files branches).Pairwise Before := by
  have mem {branch} : branch ∈ sortByKey (·.1) branches ↔ branch ∈ branches :=
    (sortByKey_perm _ _).mem_iff
  have filesIncrease : (sortByKey id files).Pairwise fun a b => a < b :=
    sortByKey_increasing (by simpa using filesDistinct)
  rw [arrange, List.pairwise_append, List.pairwise_map, List.pairwise_flatMap]
  refine ⟨filesIncrease.imp .file, ⟨?_, ?_⟩, ?_⟩
  · intro branch member
    exact List.pairwise_map.mpr ((below branch (mem.mp member)).1.imp (.inside branch.1))
  · refine (sortByKey_increasing branchesDistinct).imp_of_mem ?_
    intro branch other member member' less names inBranch names' inOther
    obtain ⟨rest, listed, rfl⟩ := List.mem_map.mp inBranch
    obtain ⟨rest', listed', rfl⟩ := List.mem_map.mp inOther
    exact .directory less ((below branch (mem.mp member)).2 rest listed)
      ((below other (mem.mp member')).2 rest' listed')
  · intro names isFile names' inBranches
    obtain ⟨name, -, rfl⟩ := List.mem_map.mp isFile
    obtain ⟨branch, member, inBranch⟩ := List.mem_flatMap.mp inBranches
    obtain ⟨rest, listed, rfl⟩ := List.mem_map.mp inBranch
    exact .fileFirst name branch.1 ((below branch (mem.mp member)).2 rest listed)

theorem branches_sublist (excluded : List String) (entries : List Entry) :
    ((branches excluded entries).map (·.1)).Sublist (entries.map Entry.name) := by
  induction entries with
  | nil => exact List.Sublist.refl _
  | cons e rest ih =>
    rw [branches, List.map_append, List.map_cons]
    have first : ((e.branch? excluded).toList.map (·.1)).Sublist [e.name] := by
      cases e with
      | file name bytes => exact List.nil_sublist _
      | link name => exact List.nil_sublist _
      | directory name inner =>
        rw [Entry.branch?]
        split
        · exact List.nil_sublist _
        · exact List.Sublist.refl _
    exact first.append ih

theorem filesBelow_sorted {entries : List Entry} (distinct : DistinctNames entries)
    (excluded : List String) : (filesBelow excluded entries).Pairwise Before := by
  -- That names are distinct is said level by level, as the tree is listed.
  induction distinct with
  | @intro entries here _ ih =>
    have files : (fileNames entries).Nodup := here.sublist (List.filter_sublist.map _)
    refine arrange_sorted files (here.sublist (branches_sublist excluded entries)) ?_
    intro branch member
    obtain ⟨name, inner, isDirectory, -, rfl⟩ := mem_branches.mp member
    exact ⟨ih name inner isDirectory, fun rest => ne_nil_of_mem_filesBelow⟩

theorem Before.nodup {rows : List (List String)} (sorted : rows.Pairwise Before) :
    rows.Nodup := by
  refine sorted.imp fun before equal => ?_
  subst equal
  exact before.asymm before

/-- There is one way to list rows in order. -/
theorem Before.unique {rows others : List (List String)} (sorted : rows.Pairwise Before)
    (sorted' : others.Pairwise Before) (same : ∀ names, names ∈ rows ↔ names ∈ others) :
    rows = others := by
  have perm := (List.perm_ext_iff_of_nodup (nodup sorted) (nodup sorted')).mpr same
  exact perm.eq_of_pairwise (fun _ _ _ _ before after => absurd after before.asymm) sorted sorted'

/-! ## Listings of a workspace -/

section Workspaces

variable {w : Workspace} {root : Path} {names : List String}

/-- A row of names leads from a path to a file of a workspace. -/
def Workspace.FileBelow (w : Workspace) (root : Path) (names : List String) : Prop :=
  ∃ entries, w.find root = .ok (.entries entries) ∧ FileAt entries names

/-- A pattern matches a row of names as a path or by its last name. -/
def Pattern.MatchesRow (pattern : String) (names : List String) : Prop :=
  Matches pattern.toList (String.intercalate "/" names).toList ∨
    ∃ name, names.getLast? = some name ∧ Matches pattern.toList name.toList

/-- A file below a path is to be listed. -/
structure Workspace.Admits (w : Workspace) (root : Path) (pattern : String)
    (excluded : List String) (under : Option String) (names : List String) : Prop where
  file : w.FileBelow root names
  allowed : ∀ directory ∈ names.dropLast, directory ∉ excluded
  inside : ∀ directory, under = some directory → directory ∈ names.dropLast
  matched : Pattern.MatchesRow pattern names

theorem isWanted_iff {pattern : String} {under : Option String} (nonempty : names ≠ []) :
    isWanted pattern under names = true ↔
      (∀ directory, under = some directory → directory ∈ names.dropLast) ∧
      Pattern.MatchesRow pattern names := by
  have last := List.getLast?_eq_some_getLast nonempty
  have within : (under.all fun directory => names.dropLast.contains directory) = true ↔
      ∀ directory, under = some directory → directory ∈ names.dropLast := by
    cases under <;> simp
  rw [isWanted, Bool.and_eq_true, Bool.or_eq_true, within, globMatches_iff, globMatches_iff,
    Pattern.MatchesRow, last]
  simp

theorem follow_distinct {levels : List (List Entry)} {inner : List Entry}
    (found : follow levels names = .ok (.entries inner))
    (distinct : ∀ level ∈ levels, DistinctNames level) : DistinctNames inner := by
  fun_induction follow levels names with
  | case1 => cases found
  | case2 here outer =>
    exact Found.entries.inj (Except.ok.inj found) ▸ distinct here List.mem_cons_self
  | case3 here outer rest ih =>
    refine ih found fun level member => distinct level ?_
    split at member
    · exact List.mem_singleton.mp member ▸ List.mem_cons_self
    · exact List.mem_cons_of_mem _ member
  | case4 => cases found
  | case5 => cases found
  | case6 => cases found
  | case7 => cases found
  | case8 here outer name rest up directory inner isDirectory ih =>
    obtain ⟨_, below⟩ := distinct here List.mem_cons_self
    refine ih found (List.forall_mem_cons.mpr ⟨?_, distinct⟩)
    exact below directory inner (List.mem_of_find?_eq_some isDirectory)

theorem find_distinct {inner : List Entry} (distinct : DistinctNames w.entries)
    (found : w.find root = .ok (.entries inner)) : DistinctNames inner := by
  have levels : ∀ level ∈ [w.entries], DistinctNames level :=
    fun level member => List.mem_singleton.mp member ▸ distinct
  unfold Workspace.find at found
  split at found
  · exact follow_distinct found levels
  · exact follow_distinct found levels

/-- The rows of names behind a listing. -/
theorem exists_rows (distinct : DistinctNames w.entries) (root : Path) (pattern : String)
    (excluded : List String) (under : Option String) :
    ∃ rows : List (List String),
      w.filesMatching root pattern excluded under =
        rows.map (fun names => { root with parts := root.parts ++ names }) ∧
      (∀ names, names ∈ rows ↔ w.Admits root pattern excluded under names) ∧
      rows.Pairwise Before := by
  unfold Workspace.filesMatching
  split
  · next entries found =>
    refine ⟨_, rfl, fun names => ?_, ?_⟩
    · rw [List.mem_filter, mem_filesBelow]
      constructor
      · rintro ⟨⟨file, allowed⟩, wanted⟩
        obtain ⟨inside, matched⟩ := (isWanted_iff file.ne_nil).mp wanted
        exact ⟨⟨entries, found, file⟩, allowed, inside, matched⟩
      · rintro ⟨⟨_, found', file⟩, allowed, inside, matched⟩
        cases Found.entries.inj (Except.ok.inj (found.symm.trans found'))
        exact ⟨⟨file, allowed⟩, (isWanted_iff file.ne_nil).mpr ⟨inside, matched⟩⟩
    · exact (filesBelow_sorted (find_distinct distinct found) excluded).filter _
  · next noDirectory =>
    refine ⟨[], rfl, fun names => ?_, .nil⟩
    refine iff_of_false List.not_mem_nil fun admitted => ?_
    obtain ⟨entries, found, -⟩ := admitted.file
    exact noDirectory entries found

/-- The files that are listed are the admitted ones, in the order `Before`, so that none is listed
twice. The order in which a workspace holds its entries makes no difference. -/
theorem filesMatching_exact (distinct : DistinctNames w.entries) (root : Path) (pattern : String)
    (excluded : List String) (under : Option String) :
    (∃ rows : List (List String),
      w.filesMatching root pattern excluded under =
        rows.map (fun names => { root with parts := root.parts ++ names }) ∧
      (∀ names, names ∈ rows ↔ w.Admits root pattern excluded under names) ∧
      rows.Pairwise Before) ∧
    (w.filesMatching root pattern excluded under).Nodup ∧
    ∀ other : Workspace, DistinctNames other.entries →
      (∀ names, other.FileBelow root names ↔ w.FileBelow root names) →
      other.filesMatching root pattern excluded under =
        w.filesMatching root pattern excluded under := by
  obtain ⟨rows, paths, admitted, sorted⟩ := exists_rows distinct root pattern excluded under
  refine ⟨⟨rows, paths, admitted, sorted⟩, ?_, fun other distinct' same => ?_⟩
  · rw [paths]
    refine (Before.nodup sorted).map fun names names' samePath => ?_
    exact List.append_cancel_left (congrArg Path.parts samePath)
  · obtain ⟨rows', paths', admitted', sorted'⟩ := exists_rows distinct' root pattern excluded under
    have sameRows : rows' = rows := by
      refine Before.unique sorted' sorted fun names => ?_
      rw [admitted, admitted']
      constructor
      · rintro ⟨file, allowed, inside, matched⟩
        exact ⟨(same names).mp file, allowed, inside, matched⟩
      · rintro ⟨file, allowed, inside, matched⟩
        exact ⟨(same names).mpr file, allowed, inside, matched⟩
    rw [paths, paths', sameRows]

end Workspaces

/-- A tree with an excluded directory and one whose name only ends like the one asked for. -/
def sources : Workspace where
  entries := [.directory "app" [
    .directory "src" [
      .directory "libjni" [.file "q.java" []],
      .directory "jni" [.file "b.java" [], .directory "old" [.file "c.java" []], .link "a.java"],
      .file "main.java" []],
    .directory "build" [.directory "jni" [.file "d.java" []]]]]
  cwd := []

theorem sources_distinct : DistinctNames sources.entries := by
  have leaf (name : String) : DistinctNames [.file name []] := ⟨by simp, by simp⟩
  have jni : DistinctNames
      [.file "b.java" [], .directory "old" [.file "c.java" []], .link "a.java"] :=
    ⟨by decide, by simp [leaf]⟩
  have build : DistinctNames [.directory "jni" [.file "d.java" []]] := ⟨by decide, by simp [leaf]⟩
  have src : DistinctNames [.directory "libjni" [.file "q.java" []],
      .directory "jni" [.file "b.java" [], .directory "old" [.file "c.java" []], .link "a.java"],
      .file "main.java" []] := by
    refine ⟨by decide, fun name inner member => ?_⟩
    obtain ⟨-, rfl⟩ | ⟨-, rfl⟩ := by simpa using member
    · exact leaf "q.java"
    · exact jni
  refine ⟨by decide, fun name inner member => ?_⟩
  obtain ⟨-, rfl⟩ : name = "app" ∧ inner = _ := by simpa [sources] using member
  refine ⟨by decide, fun name inner member => ?_⟩
  obtain ⟨-, rfl⟩ | ⟨-, rfl⟩ := by simpa using member
  · exact src
  · exact build

/-- In `sources` a file deeper below the directory asked for is admitted, and one below the
directory whose name only ends like it is not. -/
theorem filesMatching_exact_sources :
    DistinctNames sources.entries ∧
    sources.Admits ⟨.root, ["app"]⟩ "*.java" ["build"] (some "jni")
      ["src", "jni", "old", "c.java"] ∧
    ¬ sources.Admits ⟨.root, ["app"]⟩ "*.java" ["build"] (some "jni")
      ["src", "libjni", "q.java"] := by
  obtain ⟨⟨rows, paths, admitted, -⟩, -⟩ :=
    filesMatching_exact sources_distinct ⟨.root, ["app"]⟩ "*.java" ["build"] (some "jni")
  have listing : sources.filesMatching ⟨.root, ["app"]⟩ "*.java" ["build"] (some "jni") =
      [⟨.root, ["app", "src", "jni", "a.java"]⟩, ⟨.root, ["app", "src", "jni", "b.java"]⟩,
        ⟨.root, ["app", "src", "jni", "old", "c.java"]⟩] := by
    decide +kernel
  have mem_rows (names : List String) : names ∈ rows ↔ ⟨.root, "app" :: names⟩ ∈
      sources.filesMatching ⟨.root, ["app"]⟩ "*.java" ["build"] (some "jni") := by
    rw [paths]
    simp
  rw [← admitted, ← admitted, mem_rows, mem_rows, listing]
  exact ⟨sources_distinct, by decide, by decide⟩

end JavaSurvey
