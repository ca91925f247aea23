import JavaSurvey.Order
import JavaSurvey.Workspace.Glob
import JavaSurvey.Workspace.Tree

/-!
# Listing files

The files below a directory: first its own, then those of its subdirectories, both in the order of
their names. Excluded directories are passed over with all that is in them.

* `filesBelow` lists all of them, each as its row of names from the directory;
* `Workspace.filesMatching` lists those that match a pattern, as paths.
-/

namespace JavaSurvey

/-- The names of the entries that are no directories. -/
def fileNames (entries : List Entry) : List String :=
  (entries.filter (!·.isDirectory)).map Entry.name

/-- The rows of names of a directory with the given files and subdirectories. -/
def arrange (files : List String) (branches : List (String × List (List String))) :
    List (List String) :=
  (sortByKey id files).map ([·]) ++
    (sortByKey (·.1) branches).flatMap fun (name, below) => below.map (name :: ·)

mutual

/-- The name of a directory that is not excluded, and the files below it. -/
def Entry.branch? (excluded : List String) : Entry → Option (String × List (List String))
  | .file .. => none
  | .link .. => none
  | .directory name entries =>
      if excluded.contains name then none
      else some (name, arrange (fileNames entries) (branches excluded entries))

/-- The directories among some entries that are not excluded, and the files below each. -/
def branches (excluded : List String) : List Entry → List (String × List (List String))
  | [] => []
  | e :: rest => (e.branch? excluded).toList ++ branches excluded rest

end

/-- The files below a directory with the given entries. -/
def filesBelow (excluded : List String) (entries : List Entry) : List (List String) :=
  arrange (fileNames entries) (branches excluded entries)

/-- Whether a file with the given row of names is wanted: the row or the last name matches the
pattern, and one of the directories is `under` if that is given. -/
def isWanted (pattern : String) (under : Option String) (names : List String) : Bool :=
  (under.all fun directory => names.dropLast.contains directory) &&
    (globMatches pattern (String.intercalate "/" names) ||
      globMatches pattern (names.getLast?.getD ""))

/-- The wanted files below a directory, as paths. -/
def Workspace.filesMatching (w : Workspace) (root : Path) (pattern : String)
    (excluded : List String) (under : Option String := none) : List Path :=
  match w.find root with
  | .ok (.entries entries) =>
      ((filesBelow excluded entries).filter (isWanted pattern under)).map fun names =>
        { root with parts := root.parts ++ names }
  | _ => []

end JavaSurvey
