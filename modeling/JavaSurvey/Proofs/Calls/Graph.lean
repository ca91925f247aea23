import JavaSurvey.CallGraph
import JavaSurvey.Proofs.Calls.Overlap

/-!
# Callers and callees

Callers and callees are found by loops of their own. Callees are the targets of the calls in the
scope of a method, one for every call. Callers are the first methods around the calls that fit a
method, each name and line once. Scopes may overlap and methods may share a name and an arity.

1. `mem_callees` and `mem_callers`: which references each loop gives;
2. `callers_nodup`: no caller is listed twice;
3. `callers_dual_callees`: what one loop gives is reflected by the other, up to the choice of the
   first method that each of them makes.
-/

namespace JavaSurvey

@[simp] theorem CallSite.fits_iff {call : CallSite} {m : MethodDecl} :
    call.fits m = true ↔ m.name = call.name ∧ m.arity = call.arguments := by
  simp [fits]

/-- The first method with a name and an arity. -/
def firstNamed? (methods : List MethodDecl) (name : String) (arity : Int) : Option MethodDecl :=
  methods.find? fun m => m.name = name ∧ m.arity = arity

/-- A call is resolved by its name and its number of arguments only. -/
theorem find?_fits (methods : List MethodDecl) (call : CallSite) :
    methods.find? call.fits = firstNamed? methods call.name call.arguments := by
  unfold firstNamed?
  congr 1
  funext m
  rw [Bool.eq_iff_iff, CallSite.fits_iff, decide_eq_true_iff]

theorem exists_firstNamed? {methods : List MethodDecl} {m : MethodDecl} (member : m ∈ methods) :
    ∃ first, firstNamed? methods m.name m.arity = some first := by
  rw [← Option.isSome_iff_exists, firstNamed?, List.find?_isSome]
  exact ⟨m, member, decide_eq_true ⟨rfl, rfl⟩⟩

theorem named_of_firstNamed? {methods : List MethodDecl} {name : String} {arity : Int}
    {m : MethodDecl} (first : firstNamed? methods name arity = some m) :
    m.name = name ∧ m.arity = arity := by
  unfold firstNamed? at first
  simpa using List.find?_some first

theorem exists_enclosingMethod? {methods : List MethodDecl} {m : MethodDecl} {offset : Int}
    (member : m ∈ methods) (inside : m.scope.touches offset = true) :
    ∃ c, enclosingMethod? methods offset = some c := by
  rw [← Option.isSome_iff_exists, enclosingMethod?, List.find?_isSome]
  exact ⟨m, member, inside⟩

theorem touches_of_enclosingMethod? {methods : List MethodDecl} {c : MethodDecl} {offset : Int}
    (around : enclosingMethod? methods offset = some c) : c.scope.touches offset = true := by
  unfold enclosingMethod? at around
  simpa using List.find?_some around

theorem nodup_eraseDups {α : Type} [BEq α] [LawfulBEq α] : ∀ xs : List α, xs.eraseDups.Nodup
  | [] => List.nodup_nil
  | x :: rest => by
    rw [List.eraseDups_cons, List.nodup_cons, List.mem_eraseDups]
    exact ⟨by simp, nodup_eraseDups (rest.filter fun y => !y == x)⟩
termination_by xs => xs.length
decreasing_by exact Nat.lt_succ_of_le (List.length_filter_le _ rest)

section References

variable {className filePath : String} {methods : List MethodDecl} {calls : List CallSite}
  {m : MethodDecl} {r : MethodRef}

theorem mem_callees :
    r ∈ callees className filePath methods calls m ↔
      ∃ call ∈ calls, m.scope.touches call.offset = true ∧
        ∃ target, firstNamed? methods call.name call.arguments = some target ∧
          target.ref className filePath = r := by
  simp only [callees, List.mem_filterMap, List.mem_filter, Option.map_eq_some_iff, find?_fits,
    and_assoc]

theorem mem_callingMethods {c : MethodDecl} :
    c ∈ callingMethods methods calls m ↔
      ∃ call ∈ calls, call.fits m = true ∧ enclosingMethod? methods call.offset = some c := by
  simp only [callingMethods, List.mem_filterMap, List.mem_filter, and_assoc]

theorem mem_callers :
    r ∈ callers className filePath methods calls m ↔
      ∃ call ∈ calls, call.fits m = true ∧
        ∃ c, enclosingMethod? methods call.offset = some c ∧ c.ref className filePath = r := by
  constructor
  · intro member
    simp only [callers, List.mem_map, List.mem_eraseDups] at member
    obtain ⟨_, ⟨c, calling, rfl⟩, rfl⟩ := member
    obtain ⟨call, listed, fits, around⟩ := mem_callingMethods.mp calling
    exact ⟨call, listed, fits, c, around, rfl⟩
  · rintro ⟨call, listed, fits, c, around, rfl⟩
    simp only [callers, List.mem_map, List.mem_eraseDups]
    exact ⟨_, ⟨c, mem_callingMethods.mpr ⟨call, listed, fits, around⟩, rfl⟩, rfl⟩

variable (className filePath methods calls m) in
theorem callers_nodup :
    ((callers className filePath methods calls m).map fun r => (r.methodName, r.line)).Nodup := by
  simp only [callers, List.map_map]
  exact (nodup_eraseDups _).map_on fun _ _ _ _ same => same

end References

/-- A call in the scope of a method makes its target a callee of the method, and makes the first
method around the call a caller of the target. A caller of a method is the first method around some
call that fits, and has the first method of that name and arity among its callees. No name and line
is listed twice among the callers. -/
theorem callers_dual_callees (className filePath : String) (methods : List MethodDecl)
    (calls : List CallSite) :
    (∀ a ∈ methods, ∀ call ∈ calls, a.scope.start ≤ call.offset → call.offset ≤ a.scope.stop →
      ∀ target, firstNamed? methods call.name call.arguments = some target →
        target.ref className filePath ∈ callees className filePath methods calls a ∧
        ∃ c, enclosingMethod? methods call.offset = some c ∧
          c.ref className filePath ∈ callers className filePath methods calls target) ∧
    ∀ d ∈ methods,
      (∀ r ∈ callers className filePath methods calls d,
        ∃ call ∈ calls, call.name = d.name ∧ call.arguments = d.arity ∧
          ∃ c, enclosingMethod? methods call.offset = some c ∧ r = c.ref className filePath ∧
            ∃ first, firstNamed? methods d.name d.arity = some first ∧
              first.ref className filePath ∈ callees className filePath methods calls c) ∧
      ((callers className filePath methods calls d).map fun r => (r.methodName, r.line)).Nodup := by
  constructor
  · intro a declared call listed after before target resolved
    have inside := Span.touches_iff.mpr ⟨after, before⟩
    obtain ⟨c, around⟩ := exists_enclosingMethod? declared inside
    have fits := CallSite.fits_iff.mpr (named_of_firstNamed? resolved)
    exact ⟨mem_callees.mpr ⟨call, listed, inside, target, resolved, rfl⟩, c, around,
      mem_callers.mpr ⟨call, listed, fits, c, around, rfl⟩⟩
  · intro d declared
    refine ⟨fun r member => ?_, callers_nodup className filePath methods calls d⟩
    obtain ⟨call, listed, fits, c, around, rfl⟩ := mem_callers.mp member
    obtain ⟨sameName, sameArity⟩ := CallSite.fits_iff.mp fits
    obtain ⟨first, resolved⟩ := exists_firstNamed? declared
    -- The call is in the scope of the method around it, so it counts for its callees too.
    have inside := touches_of_enclosingMethod? around
    refine ⟨call, listed, sameName.symm, sameArity.symm, c, around, rfl, first, resolved, ?_⟩
    rw [sameName, sameArity] at resolved
    exact mem_callees.mpr ⟨call, listed, inside, first, resolved, rfl⟩

/-- Two methods of one name, the first of them inside another method. -/
def overloads : List MethodDecl :=
  [blockMethod "f" 1 1 0 40 (by decide), blockMethod "g" 1 2 10 20 (by decide),
    blockMethod "g" 1 3 50 60 (by decide)]

/-- Calls of `g`, one where the body of the first `g` ends and one in the second `g`. -/
def overloadCalls : List CallSite := [⟨"g", 1, 20, 2⟩, ⟨"g", 1, 55, 3⟩]

theorem callers_dual_callees_overloads :
    firstNamed? overloads "g" 1 = overloads[1]? ∧
    ⟨"A", "g", "A.java", 2⟩ ∈ callees "A" "A.java" overloads overloadCalls overloads[1] ∧
    (∃ c, enclosingMethod? overloads 20 = some c ∧
      c.ref "A" "A.java" ∈ callers "A" "A.java" overloads overloadCalls overloads[1]) ∧
    ⟨"A", "f", "A.java", 1⟩ ∈ callers "A" "A.java" overloads overloadCalls overloads[2] ∧
    ∃ call ∈ overloadCalls, ∃ c, enclosingMethod? overloads call.offset = some c ∧
      (c.name, c.line) = ("f", 1) ∧
      ⟨"A", "g", "A.java", 2⟩ ∈ callees "A" "A.java" overloads overloadCalls c := by
  obtain ⟨forward, backward⟩ := callers_dual_callees "A" "A.java" overloads overloadCalls
  obtain ⟨callee, caller⟩ := forward overloads[1] (by decide) ⟨"g", 1, 20, 2⟩ (by decide)
    (by decide) (by decide) overloads[1] rfl
  have listed : ⟨"A", "f", "A.java", 1⟩ ∈
      callers "A" "A.java" overloads overloadCalls overloads[2] := by decide
  obtain ⟨call, isCall, -, -, c, around, same, first, resolved, called⟩ :=
    (backward overloads[2] (by decide)).1 _ listed
  cases resolved
  obtain ⟨-, name, -, line⟩ := MethodRef.mk.inj same
  exact ⟨rfl, callee, caller, listed, call, isCall, c, around, by rw [← name, ← line], called⟩

end JavaSurvey
