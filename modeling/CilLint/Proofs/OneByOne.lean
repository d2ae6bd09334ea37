import CilLint.Proofs.KeyLookup
import CilLint.Proofs.Provenance

/-!
# Symbols checked one by one make the report

A symbol can be checked on its own, and then its violations are sorted on their own. A pass checks all
eligible symbols and sorts once at the end. Since both sorts are stable, it makes no difference that the
violations on each symbol were sorted before (`sortOn_flatMap_sortOn`): violations that the order does
not tell apart, such as those on overloads, stand in the order of symbols and rules either way. So the
violations on the eligible symbols, one symbol after the other, are sorted into the report.

Symbols may also be passed on as handles, because a handle leads back to its symbol (`symbol?_handle`).
-/

namespace CilLint

namespace Validator

/-- The violations on the symbol at a position of a table. -/
def validateHandle (v : Validator) (t : SymbolTable) (h : Handle) : List Violation :=
  (t.symbol? h).elim [] (v.validateSymbol t)

/-- Handles of eligible symbols stand for these symbols, so checking by handles is checking the
symbols. -/
theorem flatMap_validateHandle (v : Validator) (modules : List Module) :
    ((v.eligibleSymbols (.ofModules modules)).map Symbol.handle).flatMap
        (v.validateHandle (.ofModules modules))
      = (v.eligibleSymbols (.ofModules modules)).flatMap
          (v.validateSymbol (.ofModules modules)) := by
  rw [List.flatMap_map]
  refine List.flatMap_congr fun s hs => ?_
  rw [eligibleSymbols_eq] at hs
  rw [validateHandle, symbol?_handle (List.mem_filter.mp hs).1]
  rfl

/-- **A report is what the eligible symbols have one by one,** sorted once more. -/
theorem violations_eq_sort_validateSymbol (v : Validator) (t : SymbolTable) :
    (v.validate t).violations
      = Report.sortViolations ((v.eligibleSymbols t).flatMap (v.validateSymbol t)) := by
  have hunsorted : (v.checkTypes (v.context t)).violations
      = (v.eligibleSymbols t).flatMap fun s =>
          (checkSymbol (v.context t) v.activeRules s).violations := by
    rw [violations_checkTypes]
    exact List.flatMap_congr fun s _ => (violations_checkSymbol _ _ s).symm
  calc (v.validate t).violations
      = Report.sortViolations (v.checkTypes (v.context t)).violations := rfl
    _ = Report.sortViolations ((v.eligibleSymbols t).flatMap fun s =>
          (checkSymbol (v.context t) v.activeRules s).violations) := by rw [hunsorted]
    _ = Report.sortViolations ((v.eligibleSymbols t).flatMap (v.validateSymbol t)) :=
        (sortOn_flatMap_sortOn _ _).symm

end Validator

/-- **Checking symbols one by one gives the report of a pass.** Whatever list the violations on the
eligible symbols of a table are stably sorted into, it is the list that a pass over the table reports.
In the table of some modules, the symbols may be given by their handles. -/
theorem symbols_one_by_one_make_the_report (v : Validator) :
    (∀ t vs, StablySorts ((v.eligibleSymbols t).flatMap (v.validateSymbol t)) vs ↔
        vs = (v.validate t).violations) ∧
      ∀ modules vs,
        StablySorts (((v.eligibleSymbols (.ofModules modules)).map Symbol.handle).flatMap
            (v.validateHandle (.ofModules modules))) vs ↔
          vs = (v.validate (.ofModules modules)).violations := by
  -- There is one way to sort stably, and the report is sorted in that way.
  have hall : ∀ t vs, StablySorts ((v.eligibleSymbols t).flatMap (v.validateSymbol t)) vs ↔
      vs = (v.validate t).violations := by
    intro t vs
    rw [v.violations_eq_sort_validateSymbol t]
    exact stablySorts_iff
  refine ⟨hall, ?_⟩
  intro modules vs
  rw [v.flatMap_validateHandle]
  exact hall _ vs

end CilLint
