import JavaSurvey.Proofs.Navigation.Searches
import JavaSurvey.Proofs.Scan
import JavaSurvey.Proofs.Text.Blanks

/-!
# Stanzas of services

An init file declares a service by a line with the word `service`, the name of the service and what
is run. The search for a service goes by any line with that word that has the name somewhere.

1. `Scanner.findDefinition_unstopped`: a definition is found in the first file that has one;
2. `Scanner.definition_initService_iff`: for a service, this is the first line that mentions it;
3. `firstAt_iff_of_declares`: where the name stands in its own stanza;
4. `Scanner.definition_ownStanza_iff`: so what is found is the stanza of the service just if the
   first line that mentions it is that stanza, and the name is no piece of the word `service`.
-/

namespace JavaSurvey

/-! ## The first file with a definition -/

/-- The definition of a target in a file, if the file can be read and has one. -/
def Workspace.definitionIn? (w : Workspace) (target : DefinitionTarget) (p : Path) :
    Option (Path × Location) :=
  match w.readText p with
  | .ok t => (target.findIn t).map (p, ·)
  | .error _ => none

/-- A search that is not told to stop goes to the first of the files with a definition. -/
theorem Scanner.findDefinition_unstopped (sc : Scanner) (target : DefinitionTarget)
    (files : List Path) (s : Session) :
    (sc.unstopped.findDefinition target files s).1 =
      files.findSome? (sc.workspace.definitionIn? target) := by
  induction files generalizing s with
  | nil => rfl
  | cons p files ih =>
    have running : ¬ s.isStopped sc.unstopped.cancel = true := Bool.false_ne_true
    have sameFiles : sc.unstopped.workspace = sc.workspace := rfl
    rw [findDefinition, if_neg running, sameFiles, List.findSome?_cons, Workspace.definitionIn?]
    cases sc.workspace.readText p with
    | error e => exact ih _
    | ok t =>
      dsimp only
      cases target.findIn t with
      | none => exact ih _
      | some location => rfl

/-! ## Lines that mention a service -/

/-- A line of a file that can be read. -/
def Workspace.LineOf (w : Workspace) (p : Path) (number : Nat) (line : Text) : Prop :=
  ∃ t, w.readText p = .ok t ∧ (Text.lines t)[number]? = some line

/-- A line starts with the word `service`, and has a name somewhere. -/
structure MentionsService (name line : Text) : Prop where
  starts : "service ".toList <+: line
  has : name <:+: line

/-- A line is the stanza of a service: after the word `service` it has the name, and then a blank or
nothing. -/
def DeclaresService (name line : Text) : Prop :=
  ∃ rest, line = "service ".toList ++ (name ++ rest) ∧ rest.head?.all Text.isBlank = true

/-- A line is the first in some files that mentions a service. -/
structure FirstMention (w : Workspace) (files : List Path) (name : Text) (p : Path) (number : Nat)
    (line : Text) : Prop where
  isLine : w.LineOf p number line
  mentions : MentionsService name line
  earlier : ∀ i < number, ∀ other, w.LineOf p i other → ¬ MentionsService name other
  before : ∃ before after, files = before ++ p :: after ∧
    ∀ q ∈ before, ∀ i other, w.LineOf q i other → ¬ MentionsService name other

/-- A place is where the name starts in the stanza of a service. -/
def Workspace.StanzaAt (w : Workspace) (name : Text) (p : Path) (place : Location) : Prop :=
  ∃ line, w.LineOf p place.line line ∧ DeclaresService name line ∧
    place.character = "service ".length

section Mentions

variable {w : Workspace} {name : Text} {p : Path}

theorem Workspace.LineOf.unique {number : Nat} {line other : Text} (left : w.LineOf p number line)
    (right : w.LineOf p number other) : line = other := by
  obtain ⟨t, read, listed⟩ := left
  obtain ⟨u, again, alsoListed⟩ := right
  cases read.symm.trans again
  exact Option.some.inj (listed.symm.trans alsoListed)

/-- In a file a service is found on the first line that mentions it, where the name stands first. -/
theorem findInitService_eq_some_iff {t : Text} (read : w.readText p = .ok t) {place : Location} :
    findInitService name t = some place ↔
      ∃ line, w.LineOf p place.line line ∧ MentionsService name line ∧
        Text.FirstAt name line place.character ∧
        ∀ i < place.line, ∀ other, w.LineOf p i other → ¬ MentionsService name other := by
  have isLine {i : Nat} {line : Text} : w.LineOf p i line ↔ (Text.lines t)[i]? = some line := by
    constructor
    · rintro ⟨u, again, listed⟩
      cases read.symm.trans again
      exact listed
    · exact fun listed => ⟨t, read, listed⟩
  simp only [isLine]
  rw [findInitService, findInLines_zero_iff]
  constructor
  · rintro ⟨⟨line, listed, starts, first⟩, earlier⟩
    have has := Text.infix_iff_exists_prefix_drop.mpr ⟨_, first.here⟩
    refine ⟨line, listed, ⟨List.isPrefixOf_iff_prefix.mp starts, has⟩, first, ?_⟩
    intro i before other isOther mentions
    exact earlier i before other isOther (List.isPrefixOf_iff_prefix.mpr mentions.starts)
      mentions.has
  · rintro ⟨line, listed, mentions, first, earlier⟩
    refine ⟨⟨line, listed, List.isPrefixOf_iff_prefix.mpr mentions.starts, first⟩, ?_⟩
    intro i before other isOther starts has
    exact earlier i before other isOther ⟨List.isPrefixOf_iff_prefix.mp starts, has⟩

/-- A file without a definition of a service has no line that mentions it. -/
theorem definitionIn?_eq_none_iff {service : String} :
    w.definitionIn? ⟨.initService, service⟩ p = none ↔
      ∀ i line, w.LineOf p i line → ¬ MentionsService service.toList line := by
  unfold Workspace.definitionIn? Workspace.LineOf
  cases read : w.readText p with
  | error e =>
    refine iff_of_true rfl ?_
    rintro i line ⟨t, readable, -⟩
    cases readable
  | ok t =>
    show (findInitService service.toList t).map (p, ·) = none ↔ _
    rw [Option.map_eq_none_iff, findInitService, findInLines_eq_none_iff]
    constructor
    · rintro absent i line ⟨_, ⟨⟩, listed⟩ ⟨starts, has⟩
      exact absent line (List.mem_of_getElem? listed) (List.isPrefixOf_iff_prefix.mpr starts) has
    · intro absent line member starts has
      obtain ⟨i, listed⟩ := List.mem_iff_getElem?.mp member
      exact absent i line ⟨t, rfl, listed⟩ ⟨List.isPrefixOf_iff_prefix.mp starts, has⟩

theorem definitionIn?_eq_some_iff {service : String} {q : Path} {place : Location} :
    w.definitionIn? ⟨.initService, service⟩ q = some (p, place) ↔
      q = p ∧ ∃ line, w.LineOf p place.line line ∧ MentionsService service.toList line ∧
        Text.FirstAt service.toList line place.character ∧
        ∀ i < place.line, ∀ other, w.LineOf p i other → ¬ MentionsService service.toList other := by
  unfold Workspace.definitionIn?
  cases read : w.readText q with
  | error e =>
    refine iff_of_false (Option.some_ne_none _).symm ?_
    rintro ⟨rfl, line, ⟨t, readable, -⟩, -⟩
    cases read.symm.trans readable
  | ok t =>
    show (findInitService service.toList t).map (q, ·) = some (p, place) ↔ _
    rw [Option.map_eq_some_iff]
    constructor
    · rintro ⟨_, found, ⟨⟩⟩
      exact ⟨rfl, (findInitService_eq_some_iff read).mp found⟩
    · rintro ⟨rfl, found⟩
      exact ⟨place, (findInitService_eq_some_iff read).mpr found, rfl⟩

end Mentions

/-- A service is found on the first line of the init files that mentions it, where the name stands
first. -/
theorem Scanner.definition_initService_iff {sc : Scanner} {service : String} {root : Path}
    {excluded : List String} {s : Session} {p : Path} {place : Location} :
    (sc.unstopped.definition ⟨.initService, service⟩ root excluded s).1 = some (p, place) ↔
      ∃ line, FirstMention sc.workspace (sc.workspace.filesMatching root "*.rc" excluded)
          service.toList p place.line line ∧
        Text.FirstAt service.toList line place.character := by
  show (sc.unstopped.findDefinition _ (sc.workspace.filesMatching root "*.rc" excluded) s).1 = _ ↔ _
  rw [findDefinition_unstopped, List.findSome?_eq_some_iff]
  constructor
  · rintro ⟨before, q, after, files, here, absent⟩
    obtain ⟨rfl, line, isLine, mentions, first, earlier⟩ := definitionIn?_eq_some_iff.mp here
    refine ⟨line, ⟨isLine, mentions, earlier, before, after, files, ?_⟩, first⟩
    exact fun r member => definitionIn?_eq_none_iff.mp (absent r member)
  · rintro ⟨line, ⟨isLine, mentions, earlier, before, after, files, absent⟩, first⟩
    refine ⟨before, p, after, files, ?_, ?_⟩
    · exact definitionIn?_eq_some_iff.mpr ⟨rfl, line, isLine, mentions, first, earlier⟩
    · exact fun r member => definitionIn?_eq_none_iff.mpr (absent r member)

/-! ## The stanza of a service -/

/-- In its own stanza the name of a service stands first after the word `service`, unless it is a
piece of that word. -/
theorem firstAt_iff_of_declares {name line : Text} (solid : name.Solid)
    (declares : DeclaresService name line) :
    Text.FirstAt name line "service ".length ↔ ¬ name <:+: "service".toList := by
  obtain ⟨rest, rfl, -⟩ := declares
  have drop {j : Nat} (inside : j < "service ".length) :
      ("service ".toList ++ (name ++ rest)).drop j =
        "service".toList.drop j ++ ' ' :: (name ++ rest) := by
    have word : "service ".toList = "service".toList ++ [' '] := by decide
    have within : j ≤ "service".toList.length := Nat.le_of_lt_succ inside
    rw [word, List.append_assoc, List.drop_append_of_le_length within]
    rfl
  have noBlank : ' ' ∉ name := fun member => absurd (solid.solid ' ' member) (by decide)
  constructor
  · intro found isPiece
    obtain ⟨j, here⟩ := Text.infix_iff_exists_prefix_drop.mp isPiece
    have bounded := Text.prefix_drop_bounded solid.nonempty here
    have inside : j < "service ".length := Nat.lt_succ_of_le (Nat.le_of_add_right_le bounded)
    refine found.first j inside ?_
    rw [drop inside]
    exact here.trans (List.prefix_append _ _)
  · intro noPiece
    refine ⟨List.prefix_append name rest, ?_⟩
    intro j inside here
    rw [drop inside] at here
    have inWord := Text.prefix_of_prefix_append_cons noBlank here
    exact noPiece (Text.infix_iff_exists_prefix_drop.mpr ⟨j, inWord⟩)

/-- A service is found on the first line that mentions it. In every case this is where the name
starts in its stanza, just if that line is the stanza and the name is no piece of the word
`service`. -/
theorem Scanner.definition_ownStanza_iff (sc : Scanner) (root : Path) (excluded : List String)
    (s : Session) {service : String} (solid : Text.Solid service.toList) :
    (∀ p place,
      (sc.unstopped.definition ⟨.initService, service⟩ root excluded s).1 = some (p, place) ↔
        ∃ line, FirstMention sc.workspace (sc.workspace.filesMatching root "*.rc" excluded)
            service.toList p place.line line ∧
          Text.FirstAt service.toList line place.character) ∧
    ((∀ p place,
      (sc.unstopped.definition ⟨.initService, service⟩ root excluded s).1 = some (p, place) →
        sc.workspace.StanzaAt service.toList p place) ↔
      ∀ p number line, FirstMention sc.workspace
          (sc.workspace.filesMatching root "*.rc" excluded) service.toList p number line →
        DeclaresService service.toList line ∧ ¬ service.toList <:+: "service".toList) := by
  refine ⟨fun p place => definition_initService_iff, ?_⟩
  constructor
  · intro own p number line first
    obtain ⟨i, here⟩ := Text.infix_iff_exists_prefix_drop.mp first.mentions.has
    obtain ⟨column, -, stands⟩ := Text.exists_firstAt here
    obtain ⟨other, isOther, declares, place⟩ :=
      own p ⟨number, column⟩ (definition_initService_iff.mpr ⟨line, first, stands⟩)
    cases first.isLine.unique isOther
    refine ⟨declares, (firstAt_iff_of_declares solid declares).mp ?_⟩
    rwa [← show column = "service ".length from place]
  · intro stanza p place found
    obtain ⟨line, first, stands⟩ := definition_initService_iff.mp found
    obtain ⟨declares, noPiece⟩ := stanza p place.line line first
    exact ⟨line, first.isLine, declares,
      stands.unique ((firstAt_iff_of_declares solid declares).mpr noPiece)⟩

/-- The text of an init file with two services. The name of the second is the start of the name of
the first. -/
def initText : Text :=
  "service bootanim2 /x\nservice bootanim /y\n".toList

/-- A scanner of a directory with one init file. -/
def initFile : Scanner where
  grammar := blankGrammar
  workspace := {
    entries := [.directory "ws" [.file "a.rc" (Text.utf8 initText)]]
    cwd := ["ws"] }

/-- The path of the init file. -/
def initPath : Path := ⟨.relative, ["a.rc"]⟩

/-- Where a service is found by `initFile`. -/
def initPlace (service : String) : Option (Path × Location) :=
  (initFile.unstopped.definition ⟨.initService, service⟩ ⟨.relative, []⟩ []
    { cache := { limit := 0 } }).1

theorem initFile_lineOf {number : Nat} {line : Text} :
    initFile.workspace.LineOf initPath number line ↔
      (Text.lines initText)[number]? = some line := by
  have read : initFile.workspace.readText initPath = .ok initText := by decide +kernel
  unfold Workspace.LineOf
  simp [read]

theorem initText_lines :
    Text.lines initText = ["service bootanim2 /x".toList, "service bootanim /y".toList, []] := by
  decide +kernel

/-- The service with the longer name is found in its stanza. -/
theorem definition_ownStanza_longer :
    Text.Solid "bootanim2".toList ∧ initPlace "bootanim2" = some (initPath, ⟨0, 8⟩) ∧
      initFile.workspace.StanzaAt "bootanim2".toList initPath ⟨0, 8⟩ := by
  have solid : Text.Solid "bootanim2".toList := by decide
  have found : initPlace "bootanim2" = some (initPath, ⟨0, 8⟩) := by decide +kernel
  have own := initFile.definition_ownStanza_iff ⟨.relative, []⟩ [] { cache := { limit := 0 } } solid
  refine ⟨solid, found, own.2.mpr ?_ _ _ found⟩
  intro p number line first
  obtain ⟨i, here⟩ := Text.infix_iff_exists_prefix_drop.mp first.mentions.has
  obtain ⟨column, -, stands⟩ := Text.exists_firstAt here
  cases found.symm.trans ((own.1 p ⟨number, column⟩).mpr ⟨line, first, stands⟩)
  have isLine := initFile_lineOf.mp first.isLine
  rw [initText_lines] at isLine
  cases isLine
  have noPiece : ¬ "bootanim2".toList <:+: "service".toList := by
    rw [← Text.occursIn_iff]
    decide
  exact ⟨⟨" /x".toList, by decide, by decide⟩, noPiece⟩

/-- For the other service the same stanza is found, although the service has its own. -/
theorem bootanim_shadowed :
    Text.Solid "bootanim".toList ∧ initPlace "bootanim" = some (initPath, ⟨0, 8⟩) ∧
      ¬ initFile.workspace.StanzaAt "bootanim".toList initPath ⟨0, 8⟩ ∧
      initFile.workspace.StanzaAt "bootanim".toList initPath ⟨1, 8⟩ := by
  refine ⟨by decide, by decide +kernel, ?_, ?_⟩
  · rintro ⟨line, isLine, ⟨rest, rfl, ends⟩, -⟩
    have listed := initFile_lineOf.mp isLine
    rw [initText_lines] at listed
    obtain rfl : "2 /x".toList = rest := by simpa using listed
    exact absurd ends (by decide)
  · refine ⟨"service bootanim /y".toList, initFile_lineOf.mpr ?_, ?_, rfl⟩
    · rw [initText_lines]
      rfl
    · exact ⟨" /y".toList, by decide, by decide⟩

end JavaSurvey
