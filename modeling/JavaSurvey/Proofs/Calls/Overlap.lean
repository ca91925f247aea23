import JavaSurvey.Proofs.CallSites
import Mathlib.Data.List.Nodup

/-!
# Call sites of overlapping bodies

The body of a method inside another method is scanned twice, once on its own and once as a part of
the outer body. Both scans see a call from its name on, but one of them may see less of what comes
after it.

1. `callAt?_append`: a call that is read in a text is read in every longer text, since its name, the
   parenthesis after it and the one that closes it are all found by then;
2. `bodyCalls_agree`: so the scans of two bodies that find a site at one offset find the same site;
3. `mem_callSites_iff`: it does not matter that only the first of them is listed;
4. `callSites_order_free`: nor does the order of the methods matter.
-/

namespace JavaSurvey

/-! ## Reading on -/

/-- What is found after `k` characters that are passed over, if more text changes nothing after
them. -/
theorem passed_over {found longer : Option Nat} {length k i : Nat}
    (after : ∀ {j}, found = some j → j < length ∧ longer = some j)
    (closed : found.map (· + k) = some i) :
    i < length + k ∧ longer.map (· + k) = some i := by
  obtain ⟨j, inRest, rfl⟩ := Option.map_eq_some_iff.mp closed
  obtain ⟨bounded, same⟩ := after inRest
  exact ⟨Nat.add_lt_add_right bounded k, by rw [same, Option.map_some]⟩

/-- A parenthesis that closes in a text is in it, and closes in every longer text. -/
theorem closingFrom_append {depth : Int} {quote : Option Char} {t : Text} {i : Nat}
    (closed : closingFrom depth quote t = some i) (more : Text) :
    i < t.length ∧ closingFrom depth quote (t ++ more) = some i := by
  fun_induction closingFrom depth quote t generalizing i with
  | case1 => cases closed
  | case2 depth quote escaped rest ih =>
    rw [List.cons_append, List.cons_append, closingFrom]
    exact passed_over ih closed
  | case3 depth quote c rest notEscape ih =>
    -- Something closes in `rest`, so it is not empty, and no backslash escapes what follows.
    have notLonger : ∀ d more', c = '\\' → rest ++ more = d :: more' → False := by
      rintro d more' rfl -
      cases rest with
      | nil => cases closed
      | cons e rest => exact notEscape e rest rfl rfl
    rw [List.cons_append, closingFrom.eq_3 _ _ _ _ notLonger]
    exact passed_over ih closed
  | case4 depth c rest quotes ih =>
    rw [List.cons_append, closingFrom, if_pos quotes]
    exact passed_over ih closed
  | case5 depth rest noQuote ih =>
    rw [List.cons_append, closingFrom, if_neg noQuote, if_pos rfl]
    exact passed_over ih closed
  | case6 rest noQuote noOpening =>
    cases closed
    rw [List.cons_append, closingFrom, if_neg noQuote, if_neg noOpening, if_pos rfl, if_pos rfl]
    exact ⟨Nat.zero_lt_succ _, rfl⟩
  | case7 depth rest deeper noQuote noOpening ih =>
    rw [List.cons_append, closingFrom, if_neg noQuote, if_neg noOpening, if_pos rfl, if_neg deeper]
    exact passed_over ih closed
  | case8 depth c rest noQuote noOpening noClosing ih =>
    rw [List.cons_append, closingFrom, if_neg noQuote, if_neg noOpening, if_neg noClosing]
    exact passed_over ih closed

/-- Once a run of characters has ended, more text changes nothing about it. -/
theorem takeWhile_append_of_ended {p : Char → Bool} {t : Text} (ended : t.dropWhile p ≠ [])
    (more : Text) : (t ++ more).takeWhile p = t.takeWhile p ∧
      (t ++ more).dropWhile p = t.dropWhile p ++ more := by
  constructor
  · rw [List.takeWhile_append, if_neg]
    intro all
    apply ended
    have parts := congrArg List.length (List.takeWhile_append_dropWhile (p := p) (l := t))
    rw [List.length_append, all] at parts
    exact List.length_eq_zero_iff.mp (by omega)
  · rw [List.dropWhile_append, if_neg (by simpa using ended)]

/-- A call that is read in a text is read in every longer text. -/
theorem callAt?_append {t : Text} {call : String × Text} (found : callAt? t = some call)
    (more : Text) : callAt? (t ++ more) = some call := by
  obtain ⟨c, others, rest, close, rfl, starts, isName, after, notKeyword, closed, isArguments⟩ :=
    callAt?_inv found
  have blanksEnd : (others.dropWhile inName).dropWhile Text.isBlank ≠ [] := by
    rw [after]
    exact List.cons_ne_nil _ _
  have nameEnds : others.dropWhile inName ≠ [] := by
    intro none
    rw [none] at blanksEnd
    exact blanksEnd rfl
  obtain ⟨sameName, afterName⟩ := takeWhile_append_of_ended nameEnds more
  have afterBlanks := (takeWhile_append_of_ended blanksEnd more).2
  obtain ⟨bounded, closedLonger⟩ := closingFrom_append closed more
  rw [isName] at notKeyword
  simp only [List.cons_append, callAt?, starts, if_true, sameName, afterName, afterBlanks, after,
    List.head?_cons, notKeyword, not_false_eq_true, and_self, closing?]
  rw [← List.cons_append, closedLonger, Option.map_some,
    List.take_append_of_le_length (Nat.le_of_lt bounded), ← isName, ← isArguments]

/-! ## Two bodies -/

/-- A site in a body is a call at its offset, read up to the end of the body. -/
theorem callAt?_of_mem_bodyCalls {source : Text} {lines : LineIndex} {m : MethodDecl} {s : CallSite}
    (nonneg : ∀ body, m.body = some body → 0 ≤ body.start) (found : s ∈ bodyCalls source lines m) :
    ∃ stop arguments, 0 ≤ stop ∧
      callAt? (Text.slice source s.offset stop) = some (s.name, arguments) ∧
      s.arguments = countArguments arguments ∧ s.line = lines.lineOf s.offset := by
  unfold bodyCalls at found
  split at found
  · next body isBody =>
    have start := nonneg body isBody
    obtain ⟨before, after, arguments, split, place, call, counted⟩ := mem_scanFrom found
    refine ⟨body.stop, arguments, Int.le_trans start body.ordered, ?_, counted⟩
    rw [place, ← Text.drop_slice start, split, List.drop_left]
    exact call
  · cases found

/-- Two scans that find a site at one offset find the same site there. -/
theorem bodyCalls_agree {source : Text} {lines : LineIndex} {m n : MethodDecl} {s u : CallSite}
    (nonnegM : ∀ body, m.body = some body → 0 ≤ body.start)
    (nonnegN : ∀ body, n.body = some body → 0 ≤ body.start)
    (inM : s ∈ bodyCalls source lines m) (inN : u ∈ bodyCalls source lines n)
    (same : s.offset = u.offset) : s = u := by
  obtain ⟨stop, arguments, stopNonneg, call, counted, line⟩ := callAt?_of_mem_bodyCalls nonnegM inM
  obtain ⟨stop', arguments', stopNonneg', call', counted', line'⟩ :=
    callAt?_of_mem_bodyCalls nonnegN inN
  have equal : (s.name, arguments) = (u.name, arguments') := by
    rw [same] at call
    rcases Int.le_total stop stop' with le | ge
    · obtain ⟨more, longer⟩ := Text.slice_prefix source stopNonneg le
      rw [← longer, callAt?_append call] at call'
      exact Option.some.inj call'
    · obtain ⟨more, longer⟩ := Text.slice_prefix source stopNonneg' ge
      rw [← longer, callAt?_append call'] at call
      exact (Option.some.inj call).symm
  obtain ⟨sameName, rfl⟩ := Prod.mk.inj equal
  cases s
  cases u
  simp_all

/-! ## All bodies -/

theorem mem_addNew_of_known {known : List CallSite} (new : List CallSite) {s : CallSite}
    (member : s ∈ known) : s ∈ addNew known new := by
  induction new generalizing known with
  | nil => exact member
  | cons n new ih =>
    rw [addNew, List.foldl_cons]
    apply ih
    split
    · exact member
    · exact List.mem_append_left _ member

/-- The offset of every new site is listed. -/
theorem offset_mem_addNew (known : List CallSite) {new : List CallSite} {s : CallSite}
    (member : s ∈ new) : ∃ k ∈ addNew known new, k.offset = s.offset := by
  induction new generalizing known with
  | nil => cases member
  | cons n new ih =>
    rw [addNew, List.foldl_cons]
    cases member with
    | tail _ later => exact ih _ later
    | head =>
      split
      · next taken =>
        obtain ⟨k, isKnown, sameOffset⟩ := List.any_eq_true.mp taken
        exact ⟨k, mem_addNew_of_known new isKnown, by simpa using sameOffset⟩
      · exact ⟨s, mem_addNew_of_known new (by simp), rfl⟩

/-- What a run over some methods lists: the sites known before, and every offset of a site in one of
the bodies. -/
theorem callSites_run_complete (source : Text) (lines : LineIndex) (methods : List MethodDecl)
    (known : List CallSite) :
    let sites := methods.foldl (fun sites m => addNew sites (bodyCalls source lines m)) known
    (∀ s ∈ known, s ∈ sites) ∧
      ∀ m ∈ methods, ∀ s ∈ bodyCalls source lines m, ∃ k ∈ sites, k.offset = s.offset := by
  induction methods generalizing known with
  | nil => exact ⟨fun s member => member, fun m inside => absurd inside List.not_mem_nil⟩
  | cons m methods ih =>
    obtain ⟨keeps, covers⟩ := ih (addNew known (bodyCalls source lines m))
    refine ⟨fun s member => keeps s (mem_addNew_of_known _ member), fun n inside s found => ?_⟩
    cases inside with
    | head =>
      obtain ⟨k, listed, sameOffset⟩ := offset_mem_addNew known found
      exact ⟨k, keeps k listed, sameOffset⟩
    | tail _ later => exact covers n later s found

section NonnegativeBodies

variable {source : Text} {lines : LineIndex} {methods : List MethodDecl}

/-- The sites listed are those found in any of the bodies. -/
theorem mem_callSites_iff
    (nonneg : ∀ m ∈ methods, ∀ body, m.body = some body → 0 ≤ body.start) {s : CallSite} :
    s ∈ callSites source lines methods ↔ ∃ m ∈ methods, s ∈ bodyCalls source lines m := by
  constructor
  · exact mem_callSites
  · rintro ⟨m, declared, found⟩
    obtain ⟨k, listed, sameOffset⟩ :=
      (callSites_run_complete source lines methods []).2 m declared s found
    obtain ⟨n, declaredToo, foundToo⟩ := mem_callSites listed
    rw [← bodyCalls_agree (nonneg n declaredToo) (nonneg m declared) foundToo found sameOffset]
    exact listed

/-- In whatever order the methods are given, their bodies have the same call sites: no offset is
listed twice, a site is listed exactly if the scan of some body finds it, and the scans that find a
site at one offset find the same. -/
theorem callSites_order_free
    (nonneg : ∀ m ∈ methods, ∀ body, m.body = some body → 0 ≤ body.start) :
    (∀ others, others.Perm methods →
      (callSites source lines others).Perm (callSites source lines methods)) ∧
    ((callSites source lines methods).map CallSite.offset).Nodup ∧
    (∀ s, s ∈ callSites source lines methods ↔ ∃ m ∈ methods, s ∈ bodyCalls source lines m) ∧
    ∀ m ∈ methods, ∀ n ∈ methods, ∀ s ∈ bodyCalls source lines m,
      ∀ u ∈ bodyCalls source lines n, s.offset = u.offset → s = u := by
  have distinct (ms : List MethodDecl) : (callSites source lines ms).Nodup :=
    (callSites_nodup source lines ms).of_map _
  refine ⟨fun others perm => ?_, callSites_nodup source lines methods,
    fun s => mem_callSites_iff nonneg, fun m inM n inN s inBody u inOther same => ?_⟩
  · refine (List.perm_ext_iff_of_nodup (distinct others) (distinct methods)).mpr fun s => ?_
    have nonnegOthers : ∀ m ∈ others, ∀ body, m.body = some body → 0 ≤ body.start :=
      fun m member => nonneg m (perm.mem_iff.mp member)
    rw [mem_callSites_iff nonneg, mem_callSites_iff nonnegOthers]
    simp only [perm.mem_iff]
  · exact bodyCalls_agree (nonneg m inM) (nonneg n inN) inBody inOther same

end NonnegativeBodies

/-- A source with a block inside a block. -/
def blocksSource : Text := "\x7b a(); \x7b b(0); \x7d \x7d".toList

/-- A method that is all body. -/
def blockMethod (name : String) (arity line start stop : Int) (ordered : start ≤ stop) :
    MethodDecl where
  name := name
  arity := arity
  visibility := .package
  isStatic := false
  line := line
  signature := name
  span := ⟨start, stop, ordered⟩
  body := some ⟨start, stop, ordered⟩

/-- A body that ends before the call in the inner block is closed, the inner block, and the outer
one. -/
def blockMethods : List MethodDecl :=
  [blockMethod "f" 0 1 0 12 (by decide), blockMethod "g" 0 1 7 16 (by decide),
    blockMethod "h" 0 1 0 18 (by decide)]

theorem callSites_order_free_blocks :
    (∀ m ∈ blockMethods, ∀ body, m.body = some body → 0 ≤ body.start) ∧
    blockMethods.map (fun m => (bodyCalls blocksSource #[0] m).map CallSite.offset) =
      [[2], [9], [2, 9]] ∧
    (callSites blocksSource #[0] blockMethods.reverse).Perm
      (callSites blocksSource #[0] blockMethods) := by
  have nonneg : ∀ m ∈ blockMethods, ∀ body, m.body = some body → 0 ≤ body.start := by
    simp [blockMethods, blockMethod]
  exact ⟨nonneg, by decide, (callSites_order_free nonneg).1 _ (List.reverse_perm _)⟩

end JavaSurvey
