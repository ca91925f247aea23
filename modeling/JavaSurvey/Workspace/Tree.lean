import JavaSurvey.Document
import JavaSurvey.Failure

/-!
# Workspaces

A workspace is a tree of directories and files, with a directory in which relative paths start.
Some files are links to nothing: they are listed, but cannot be read.
-/

namespace JavaSurvey

/-- An entry of a directory. -/
inductive Entry where
  | file (name : String) (bytes : List UInt8)
  /-- A link to nothing. -/
  | link (name : String)
  | directory (name : String) (entries : List Entry)
  deriving Inhabited

namespace Entry

/-- The name of an entry. -/
def name : Entry → String
  | file n _ => n
  | link n => n
  | directory n _ => n

/-- Whether an entry is a directory. -/
def isDirectory : Entry → Bool
  | directory .. => true
  | _ => false

/-- The entry of a name, if there is one. -/
def find? (entries : List Entry) (name : String) : Option Entry :=
  entries.find? (·.name == name)

/-- The entries after the one of a name is replaced, or added when there is none. -/
def set (entries : List Entry) (entry : Entry) : List Entry :=
  if entries.any (·.name == entry.name) then
    entries.map fun e => if e.name == entry.name then entry else e
  else entries ++ [entry]

/-- The entries inside the directory of a name, none when there is no such directory. -/
def within (entries : List Entry) (name : String) : List Entry :=
  match find? entries name with
  | some (directory _ inner) => inner
  | _ => []

/-- The entries after what stands at the end of a row of names is set. The directories on the way
are made where they are missing. -/
def put (make : String → Option Entry → Entry) : List String → List Entry → List Entry
  | [], entries => entries
  | [name], entries => set entries (make name (find? entries name))
  | name :: rest, entries => set entries (directory name (put make rest (within entries name)))

/-- The entries after the one at the end of a row of names is taken away. -/
def remove : List String → List Entry → List Entry
  | [], entries => entries
  | [name], entries => entries.filter (·.name != name)
  | name :: rest, entries =>
      if entries.any (·.name == name) then
        set entries (directory name (remove rest (within entries name)))
      else entries

end Entry

/-- What a path leads to. -/
inductive Found where
  | bytes (content : List UInt8)
  | entries (inner : List Entry)

/-- Follows names from the innermost of some directories. -/
def follow : List (List Entry) → List String → Except FileFault Found
  | [], _ => .error .notFound
  | here :: _, [] => .ok (.entries here)
  | here :: outer, name :: rest =>
      if name = ".." then follow (if outer.isEmpty then [here] else outer) rest
      else
        match Entry.find? here name with
        | none => .error .notFound
        | some (.link _) => .error .notFound
        | some (.file _ content) => if rest.isEmpty then .ok (.bytes content) else .error .notDirectory
        | some (.directory _ inner) => follow (inner :: here :: outer) rest

/-- A tree of files. -/
structure Workspace where
  /-- The entries of the root directory. -/
  entries : List Entry
  /-- The names from the root to the directory in which relative paths start. -/
  cwd : List String

namespace Workspace

/-- The workspace in which there is nothing but the directory it starts in. -/
def empty (cwd : List String) : Workspace where
  entries := Entry.put (fun name _ => .directory name []) cwd []
  cwd := cwd

/-- What a path leads to. -/
def find (w : Workspace) (p : Path) : Except FileFault Found :=
  match p.anchor with
  | .relative => follow [w.entries] (w.cwd ++ p.parts)
  | _ => follow [w.entries] p.parts

/-- The bytes of a file. -/
def readBytes (w : Workspace) (p : Path) : Except Failure (List UInt8) :=
  match w.find p with
  | .ok (.bytes content) => .ok content
  | .ok (.entries _) => .error (.file .isDirectory p.toString)
  | .error fault => .error (.file fault p.toString)

/-- The text of a file. -/
def readText (w : Workspace) (p : Path) : Except Failure Text :=
  (w.readBytes p).map fun bytes => Text.unixLines (Text.ofUtf8 bytes)

/-- The document of a file. Its language is named by the extension. -/
def readDocument (w : Workspace) (p : Path) : Except Failure Document :=
  (w.readText p).map fun text => {
    uri := Path.addressOf (p.resolve w.cwd)
    text := text
    languageId := p.extension
    fileName := p.toString }

/-- The workspace after a file is written. -/
def write (w : Workspace) (p : Path) (content : List UInt8) : Workspace :=
  { w with entries := Entry.put (fun name _ => .file name content) (p.resolve w.cwd) w.entries }

/-- The workspace after a link to nothing is made. -/
def writeLink (w : Workspace) (p : Path) : Workspace :=
  { w with entries := Entry.put (fun name _ => .link name) (p.resolve w.cwd) w.entries }

/-- The workspace after a directory is made. -/
def writeDirectory (w : Workspace) (p : Path) : Workspace :=
  let make (name : String) : Option Entry → Entry
    | some (.directory _ inner) => .directory name inner
    | _ => .directory name []
  { w with entries := Entry.put make (p.resolve w.cwd) w.entries }

/-- The workspace after a file or directory is taken away. -/
def delete (w : Workspace) (p : Path) : Workspace :=
  { w with entries := Entry.remove (p.resolve w.cwd) w.entries }

end Workspace

end JavaSurvey
