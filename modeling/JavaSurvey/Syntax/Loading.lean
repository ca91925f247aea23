import JavaSurvey.Failure
import JavaSurvey.Syntax.Concrete

/-!
# Loading the grammar

The grammar comes in a package of its own, which may not be installed. It is brought in when it is
first needed and kept from then on, so the package makes no difference to later loads
(`GrammarLoader.load_again`).
-/

namespace JavaSurvey

/-- The grammar that a process has loaded, if any. -/
structure GrammarLoader where
  loaded? : Option Grammar := none
  /-- How often the package was brought in. -/
  imports : Nat := 0

namespace GrammarLoader

/-- The grammar that is loaded already, or else the one of the package, if it is installed. -/
def load (package? : Option Grammar) (loader : GrammarLoader) :
    Except Failure Grammar × GrammarLoader :=
  match loader.loaded? with
  | some grammar => (.ok grammar, loader)
  | none =>
      match package? with
      | some grammar => (.ok grammar, ⟨some grammar, loader.imports + 1⟩)
      | none => (.error .grammarUnavailable, loader)

/-- After a load that succeeds, every other one gives the same grammar and brings nothing in. -/
theorem load_again {package? : Option Grammar} {loader : GrammarLoader} {grammar : Grammar}
    (loaded : (loader.load package?).1 = .ok grammar) (later? : Option Grammar) :
    (loader.load package?).2.load later? = (.ok grammar, (loader.load package?).2) := by
  obtain ⟨_ | kept, imports⟩ := loader
  · cases package? with
    | none => cases loaded
    | some found =>
      cases loaded
      rfl
  · cases loaded
    rfl

/-- A load fails exactly if nothing is loaded and the package is not installed, and then it leaves
everything as it is. -/
theorem load_fails_iff (package? : Option Grammar) (loader : GrammarLoader) :
    loader.load package? = (.error .grammarUnavailable, loader) ↔
      loader.loaded? = none ∧ package? = none := by
  obtain ⟨_ | kept, imports⟩ := loader <;> cases package? <;> simp [load]

end GrammarLoader

end JavaSurvey
