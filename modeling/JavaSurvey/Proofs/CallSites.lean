import JavaSurvey.CallGraph
import JavaSurvey.Proofs.Outline
import JavaSurvey.Proofs.Text.Lines
import JavaSurvey.Proofs.Text.Slices

/-!
# Places of call sites

Call sites are found in slices of the source and listed by offsets into the whole of it.

1. `callAt?_inv`: what a call is made of;
2. `mem_scanFrom_iff`: the sites of a text are the calls at the places where no name goes on;
3. `mem_callSites`: each listed site is found in a body, and `callSites_nodup`: no offset is listed
   twice;
4. `located_of_start_nonneg`: a site in the body of a method is where it says it is in the source.
-/

namespace JavaSurvey

/-! ## One call -/

/-- What a call is made of: a name that is no keyword, blanks, and a parenthesis that is closed. -/
theorem callAt?_inv {t : Text} {name : String} {arguments : Text}
    (call : callAt? t = some (name, arguments)) :
    ∃ c more rest close, t = c :: more ∧ startsName c = true ∧
      name = String.ofList (c :: more.takeWhile inName) ∧
      (more.dropWhile inName).dropWhile Text.isBlank = '(' :: rest ∧ name ∉ callKeywords ∧
      closing? ('(' :: rest) = some close ∧ arguments = (('(' :: rest).take close).drop 1 := by
  cases t with
  | nil => cases call
  | cons c more =>
    simp only [callAt?] at call
    split at call
    · next starts =>
      split at call
      · next opened =>
        obtain ⟨rest, after⟩ := List.head?_eq_some_iff.mp opened.1
        obtain ⟨close, closes, pair⟩ := Option.map_eq_some_iff.mp call
        obtain ⟨rfl, rfl⟩ := Prod.mk.inj pair
        rw [after] at closes ⊢
        exact ⟨c, more, rest, close, rfl, starts, rfl, after, opened.2, closes, rfl⟩
      · cases call
    · cases call

/-- A call starts with its name, which is no keyword, and does not end with it. -/
theorem callAt?_spec {t : Text} {name : String} {arguments : Text}
    (call : callAt? t = some (name, arguments)) :
    name ∉ callKeywords ∧ ∃ rest, rest ≠ [] ∧ t = name.toList ++ rest := by
  obtain ⟨c, more, rest, close, rfl, -, rfl, after, notKeyword, -⟩ := callAt?_inv call
  refine ⟨notKeyword, more.dropWhile inName, ?_, ?_⟩
  · intro empty
    rw [empty] at after
    cases after
  · rw [String.toList_ofList, List.cons_append, List.takeWhile_append_dropWhile]

/-! ## The sites of a text -/

/-- No name goes on where a text ends; `joined` says whether one does where it starts. -/
def NameEnds (joined : Bool) (before : Text) : Prop :=
  before.getLast?.elim joined inName = false

theorem nameEnds_cons {joined : Bool} {c : Char} {before : Text} :
    NameEnds joined (c :: before) ↔ NameEnds (inName c) before := by
  unfold NameEnds
  cases before with
  | nil => rfl
  | cons d before => rfl

/-- The sites of a text are the one at its first character, if there is a call, and those of the
rest. -/
theorem scanFrom_cons (lines : LineIndex) (offset : Int) (joined : Bool) (c : Char) (rest : Text) :
    scanFrom lines offset joined (c :: rest) =
      ((if joined then none else callAt? (c :: rest)).map fun call =>
        ⟨call.1, countArguments call.2, offset, lines.lineOf offset⟩).toList ++
      scanFrom lines (offset + 1) (inName c) rest := by
  rw [scanFrom]
  cases if joined then none else callAt? (c :: rest) <;> rfl

theorem mem_scanFrom_cons {lines : LineIndex} {offset : Int} {joined : Bool} {c : Char}
    {rest : Text} {s : CallSite} :
    s ∈ scanFrom lines offset joined (c :: rest) ↔
      (∃ name arguments, joined = false ∧ callAt? (c :: rest) = some (name, arguments) ∧
        s = ⟨name, countArguments arguments, offset, lines.lineOf offset⟩) ∨
      s ∈ scanFrom lines (offset + 1) (inName c) rest := by
  rw [scanFrom_cons, List.mem_append, Option.mem_toList, Option.map_eq_some_iff]
  cases joined with
  | true => simp
  | false => simp [eq_comm]

/-- The sites of a text that stands at `offset` are the calls at the places where no name goes
on. -/
theorem mem_scanFrom_iff {lines : LineIndex} {offset : Int} {joined : Bool} {t : Text}
    {s : CallSite} :
    s ∈ scanFrom lines offset joined t ↔
      ∃ before after name arguments, t = before ++ after ∧ NameEnds joined before ∧
        callAt? after = some (name, arguments) ∧
        s = ⟨name, countArguments arguments, offset + before.length,
          lines.lineOf (offset + before.length)⟩ := by
  induction t generalizing offset joined with
  | nil =>
    constructor
    · intro found
      cases found
    · rintro ⟨before, after, name, arguments, parts, -, call, -⟩
      obtain ⟨-, rfl⟩ := List.append_eq_nil_iff.mp parts.symm
      cases call
  | cons c rest ih =>
    rw [mem_scanFrom_cons, ih]
    constructor
    · rintro (⟨name, arguments, rfl, call, rfl⟩ | ⟨before, after, name, arguments, rfl, ends, here⟩)
      · exact ⟨[], c :: rest, name, arguments, rfl, rfl, call, by simp⟩
      · refine ⟨c :: before, after, name, arguments, rfl, nameEnds_cons.mpr ends, ?_⟩
        rwa [List.length_cons, Int.natCast_succ, Int.add_comm _ 1, ← Int.add_assoc]
    · rintro ⟨before, after, name, arguments, parts, ends, call, rfl⟩
      cases before with
      | nil =>
        obtain rfl : c :: rest = after := parts
        exact .inl ⟨name, arguments, ends, call, by simp⟩
      | cons d before =>
        obtain ⟨rfl, rfl⟩ := List.cons.inj parts
        refine .inr ⟨before, after, name, arguments, rfl, nameEnds_cons.mp ends, call, ?_⟩
        rw [List.length_cons, Int.natCast_succ, Int.add_comm _ 1, ← Int.add_assoc]

/-- A site found in a text that stands at `offset` is a call at its own offset. -/
theorem mem_scanFrom {lines : LineIndex} {offset : Int} {joined : Bool} {t : Text} {s : CallSite}
    (found : s ∈ scanFrom lines offset joined t) :
    ∃ before after arguments, t = before ++ after ∧ s.offset = offset + before.length ∧
      callAt? after = some (s.name, arguments) ∧ s.arguments = countArguments arguments ∧
      s.line = lines.lineOf s.offset := by
  obtain ⟨before, after, name, arguments, parts, -, call, rfl⟩ := mem_scanFrom_iff.mp found
  exact ⟨before, after, arguments, parts, rfl, call, rfl, rfl⟩

/-! ## The sites of several bodies -/

theorem mem_addNew {known new : List CallSite} {s : CallSite} (found : s ∈ addNew known new) :
    s ∈ known ∨ s ∈ new := by
  induction new generalizing known with
  | nil => exact Or.inl found
  | cons n new ih =>
    rw [addNew, List.foldl_cons] at found
    rcases ih found with old | fresh
    · split at old
      · exact Or.inl old
      · rcases List.mem_append.mp old with before | last
        · exact Or.inl before
        · exact Or.inr (List.mem_cons.mpr (Or.inl (List.mem_singleton.mp last)))
    · exact Or.inr (List.mem_cons_of_mem _ fresh)

/-- Adding new sites lists no offset twice. -/
theorem addNew_nodup {known new : List CallSite} (distinct : (known.map CallSite.offset).Nodup) :
    ((addNew known new).map CallSite.offset).Nodup := by
  induction new generalizing known with
  | nil => exact distinct
  | cons n new ih =>
    rw [addNew, List.foldl_cons]
    apply ih
    split
    · exact distinct
    · next fresh =>
      rw [List.map_append, List.nodup_append]
      refine ⟨distinct, by simp, ?_⟩
      rintro a before b last rfl
      obtain ⟨k, member, rfl⟩ := List.mem_map.mp before
      apply fresh
      exact List.any_eq_true.mpr ⟨k, member, by simpa using last⟩

/-- What a run over some methods keeps: sites come from the bodies, and no offset twice. -/
theorem callSites_run (source : Text) (lines : LineIndex) (methods : List MethodDecl)
    (known : List CallSite) (distinct : (known.map CallSite.offset).Nodup) :
    let sites := methods.foldl (fun sites m => addNew sites (bodyCalls source lines m)) known
    (sites.map CallSite.offset).Nodup ∧
      ∀ s ∈ sites, s ∈ known ∨ ∃ m ∈ methods, s ∈ bodyCalls source lines m := by
  induction methods generalizing known with
  | nil => exact ⟨distinct, fun s member => Or.inl member⟩
  | cons m methods ih =>
    obtain ⟨nodup, origin⟩ := ih (addNew known (bodyCalls source lines m)) (addNew_nodup distinct)
    refine ⟨nodup, fun s member => ?_⟩
    rcases origin s member with early | ⟨n, inside, found⟩
    · rcases mem_addNew early with old | here
      · exact Or.inl old
      · exact Or.inr ⟨m, List.mem_cons_self, here⟩
    · exact Or.inr ⟨n, List.mem_cons_of_mem _ inside, found⟩

theorem callSites_nodup (source : Text) (lines : LineIndex) (methods : List MethodDecl) :
    ((callSites source lines methods).map CallSite.offset).Nodup :=
  (callSites_run source lines methods [] List.nodup_nil).1

theorem mem_callSites {source : Text} {lines : LineIndex} {methods : List MethodDecl}
    {s : CallSite} (found : s ∈ callSites source lines methods) :
    ∃ m ∈ methods, s ∈ bodyCalls source lines m := by
  rcases (callSites_run source lines methods [] List.nodup_nil).2 s found with none | body
  · cases none
  · exact body

/-! ## Places in the source -/

namespace CallSite

/-- A site is where it says it is: its name, which is no keyword, stands at its offset, and its
line is one more than the newlines before it. -/
structure Located (s : CallSite) (source : Text) : Prop where
  notKeyword : s.name ∉ callKeywords
  named : Text.slice source s.offset (s.offset + s.name.length) = s.name.toList
  line : s.line = 1 + (source.take s.offset.toNat).count '\n'

/-- A site stands in the body of a method, from its first character to the end of its name. -/
def InBody (s : CallSite) (m : MethodDecl) : Prop :=
  ∃ body, m.body = some body ∧ body.start ≤ s.offset ∧ s.offset + s.name.length < body.stop

/-- The method around a site in a body is found. -/
theorem InBody.enclosed {s : CallSite} {m : MethodDecl} {methods : List MethodDecl}
    (inside : s.InBody m) (member : m ∈ methods) :
    (enclosingMethod? methods s.offset).isSome := by
  obtain ⟨body, isBody, first, last⟩ := inside
  rw [enclosingMethod?, List.find?_isSome]
  refine ⟨m, member, ?_⟩
  simp only [MethodDecl.scope, isBody, Option.getD_some, Span.touches, decide_eq_true_eq]
  omega

end CallSite

/-- The sites in a body that does not start before the source are where they say they are, however
far the body goes. -/
theorem located_of_start_nonneg {source : Text} {m : MethodDecl} {s : CallSite}
    (starts : ∀ body, m.body = some body → 0 ≤ body.start)
    (found : s ∈ bodyCalls source (LineIndex.ofText source) m) :
    s.InBody m ∧ s.Located source ∧ 0 ≤ s.offset ∧
      s.name.toList <+: source.drop s.offset.toNat := by
  unfold bodyCalls at found
  split at found
  · next body isBody =>
    have nonneg := starts body isBody
    have bounded := Text.length_slice_le source body.ordered
    obtain ⟨before, after, arguments, split, place, call, -, line⟩ := mem_scanFrom found
    obtain ⟨notKeyword, rest, more, named⟩ := callAt?_spec call
    -- The body is `before ++ (name ++ rest)`, and what is left of it after `before` is a slice too.
    have here : s.name.toList ++ rest = Text.slice source s.offset body.stop := by
      rw [place, ← Text.drop_slice nonneg, split, List.drop_left, named]
    have offset : 0 ≤ s.offset := by
      rw [place]
      exact Int.add_nonneg nonneg (Int.natCast_nonneg _)
    have left : s.name.toList ++ rest <+: source.drop s.offset.toNat := by
      rw [here]
      exact Text.slice_prefix_drop source offset (Int.le_trans nonneg body.ordered)
    have moreLength : 0 < rest.length := List.length_pos_iff.mpr more
    have nameLength : s.name.toList.length = s.name.length := String.length_toList
    have nameLeft := (List.prefix_append s.name.toList rest).trans left
    rw [split, named, List.length_append, List.length_append] at bounded
    refine ⟨⟨body, isBody, by omega, by omega⟩, ⟨notKeyword, ?_, ?_⟩, offset, nameLeft⟩
    · rw [← nameLength]
      exact Text.slice_eq_of_prefix_drop offset nameLeft
    · rw [line, LineIndex.lineOf_ofText]
  · cases found

/-- The sites in the body of a method that lies in the source are where they say they are. -/
theorem located_of_mem_bodyCalls {source : Text} {m : MethodDecl} {s : CallSite}
    (within : m.Within source.length)
    (found : s ∈ bodyCalls source (LineIndex.ofText source) m) :
    s.InBody m ∧ s.Located source := by
  have starts (body : Span) (isBody : m.body = some body) : 0 ≤ body.start :=
    Int.le_trans within.nonneg (within.body body isBody).1
  obtain ⟨inBody, located, -⟩ := located_of_start_nonneg starts found
  exact ⟨inBody, located⟩

end JavaSurvey
