import CilLint.Proofs.Outline

/-!
# The order of modules

Modules can be given in any order. The numbers of all types and members depend on the order, and so
does the order in which bodies are scanned and reports are merged, but no count in the report does.
Lists come out in a different order at most (`Report.Reorders`), and the violations not even that,
unless some of them have the same sort key.

The argument goes by views. Neither the position of a module nor the positions of its types are part
of the views of its symbols (`flatMap_views_sitesOfTypes`), so a table has the views of its modules
put together (`map_view_symbols_eq`), and for another order of modules these are the same views in
another order. The same is true of what is left out (`ofModules_skips`).
-/

namespace CilLint

/-- **Two reports that say the same, in a different order at most.** -/
structure Report.Reorders (a b : Report) : Prop where
  violations : a.violations.Perm b.violations
  modulesScanned : a.modulesScanned = b.modulesScanned
  symbolsChecked : a.symbolsChecked = b.symbolsChecked
  ignored : a.ignored = b.ignored
  skippedTypes : a.skippedTypes = b.skippedTypes
  skippedMembers : a.skippedMembers = b.skippedMembers
  ruleFaults : a.ruleFaults = b.ruleFaults
  faults : a.faults.Perm b.faults

/-! ### Modules by themselves -/

/-- Views do not tell where types are declared: with other addresses for the same trees they are the
same, in the same order. -/
theorem flatMap_views_sitesOfTypes (m : Module) (address address' : List Nat)
    (enclosing : List TypeInfo) (position position' : Nat) (ts : List TypeDef) :
    (sitesOfTypes m address enclosing position ts).flatMap Site.views
      = (sitesOfTypes m address' enclosing position' ts).flatMap Site.views := by
  induction ts using TypeDef.forestInduction
    generalizing address address' enclosing position position' with
  | nil => rfl
  | cons info members nested ts ihnested ihts =>
    rw [sitesOfTypes_cons, sitesOfTypes_cons, List.flatMap_append, List.flatMap_append,
      ihts address address' enclosing (position + 1) (position' + 1)]
    congr 1
    -- If the first type could not be loaded, it has no views, and neither has what is nested in it.
    cases hload : info.unresolved with
    | some reason => rw [sitesOfType_unresolved m _ _ hload, sitesOfType_unresolved m _ _ hload]
    | none =>
      rw [sitesOfType_loaded m _ _ hload, sitesOfType_loaded m _ _ hload, List.flatMap_cons,
        List.flatMap_cons, ihnested (address ++ [position]) (address' ++ [position'])]
      -- What is left is the type itself, whose views do not mention its address.
      rfl

/-- The views of the symbols of one module. -/
def Module.views (m : Module) : List (Symbol × Bool) :=
  (sitesOfTypes m [] [] 0 m.manifest.types).flatMap Site.views

/-- **The views of a table are those of its modules.** -/
theorem map_view_symbols_eq (modules : List Module) :
    (SymbolTable.ofModules modules).symbols.map Symbol.view = modules.flatMap Module.views := by
  -- The positions of modules are numbered from zero, and for the induction from anywhere.
  have hfrom : ∀ position, (sitesFrom position modules).flatMap Site.views
      = modules.flatMap Module.views := by
    intro position
    unfold sitesFrom
    induction modules generalizing position with
    | nil => rfl
    | cons m modules ih =>
      rw [List.zipIdx_cons, List.flatMap_cons, List.flatMap_append, ih, List.flatMap_cons]
      congr 1
      exact flatMap_views_sitesOfTypes m _ _ _ _ _ _
  rw [map_view_symbols, sitesOfModules, hfrom]

/-! ### Permuted modules -/

section Permuted

variable {modules modules' : List Module}

/-- Another order of modules is another order of views, and of what is left out. -/
theorem perm_views (h : modules.Perm modules') :
    ((SymbolTable.ofModules modules).symbols.map Symbol.view).Perm
      ((SymbolTable.ofModules modules').symbols.map Symbol.view) := by
  rw [map_view_symbols_eq, map_view_symbols_eq]
  exact h.flatMap_right _

theorem perm_skips (h : modules.Perm modules') :
    (SymbolTable.ofModules modules).skips.Perm (SymbolTable.ofModules modules').skips := by
  rw [ofModules_skips, ofModules_skips]
  exact h.flatMap_right _

/-- The indexes of two orders answer alike. They count the uses in all bodies, and counting does not
depend on the order of bodies. -/
theorem agrees_of_perm_modules (h : modules.Perm modules') :
    (ReferenceIndex.ofTable (.ofModules modules)).Agrees (.ofTable (.ofModules modules')) :=
  ReferenceIndex.agrees_of_perm (perm_views h) (perm_skips h).isEmpty_eq

/-- Before they are sorted, the violations of two orders are the same up to order. This is said of the
built-in rules only; any other rule may look at the numbers of symbols. -/
theorem perm_violations_of_perm_modules (h : modules.Perm modules') {v : Validator}
    (hregistry : v.registry = .builtin) :
    ((v.findings (.ofModules modules)).map (Finding.violation v.weights)).Perm
      ((v.findings (.ofModules modules')).map (Finding.violation v.weights)) := by
  have hrules := Validator.activeRules_subset_builtin hregistry
  -- Both sides get the context of the second order.
  have hagrees : (v.context (.ofModules modules)).references.Agrees
      (v.context (.ofModules modules')).references := agrees_of_perm_modules h
  have hself : (v.context (.ofModules modules')).references.Agrees
      (v.context (.ofModules modules')).references := agrees_of_perm_modules (.refl modules')
  rw [Validator.map_violation_findings hrules hagrees rfl,
    Validator.map_violation_findings hrules hself rfl]
  exact ((perm_views h).filter _).flatMap_right _

end Permuted

/-- **The order of modules is irrelevant.** For every choice of modules by name, of rules to leave out
and of weights, the reports of the built-in rules on some modules in two orders have the same numbers
and the same violations and faults, up to order. The violations are in the same order as well if no
two of them have the same sort key. -/
theorem module_order_is_irrelevant (eligible : String → Bool) (disabled : List String)
    (weights : Weights Float) {modules modules' : List Module} (h : modules.Perm modules') :
    let v : Validator := { eligible, disabled, weights }
    let report := v.validate (.ofModules modules)
    let report' := v.validate (.ofModules modules')
    report.Reorders report' ∧
      ((report.violations.map Violation.sortKey).Nodup → report.violations = report'.violations) := by
  intro v report report'
  have hrules : v.activeRules ⊆ Rule.builtin := Validator.activeRules_subset_builtin rfl
  have hviolations := perm_violations_of_perm_modules (v := v) h rfl
  refine ⟨?_, ?_⟩
  · constructor
    case violations =>
      exact (v.perm_findings _).trans (hviolations.trans (v.perm_findings _).symm)
    case modulesScanned => exact h.countP_eq _
    case symbolsChecked =>
      rw [v.symbolsChecked_validate, v.symbolsChecked_validate]
      exact (perm_views h).countP_eq _
    case ignored =>
      rw [v.ignored_validate, v.ignored_validate]
      exact (perm_views h).countP_eq _
    case skippedTypes => exact (perm_skips h).countP_eq _
    case skippedMembers => exact (perm_skips h).countP_eq _
    -- Built-in rules do not go wrong, so there are no faults but those of the table.
    case ruleFaults =>
      rw [Validator.ruleFaults_validate hrules, Validator.ruleFaults_validate hrules]
    case faults =>
      rw [Validator.faults_validate hrules, Validator.faults_validate hrules]
      exact (perm_skips h).map _
  · intro hnodup
    -- The violations with different keys can be sorted in one way only.
    have hkeys : ((v.findings (.ofModules modules)).map (Finding.violation v.weights)).Pairwise
        fun a b => a.order b ≠ .eq := by
      have hperm := (v.perm_findings (.ofModules modules)).map Violation.sortKey
      refine (List.pairwise_map.mp (hperm.nodup hnodup)).imp fun hne heq => ?_
      exact hne (Violation.order_eq_iff.mp heq)
    change (v.validate _).violations = (v.validate _).violations
    rw [v.violations_eq_sortOn, v.violations_eq_sortOn]
    exact sortOn_eq_of_perm hviolations hkeys

/-- A module with a class that has nothing in it. -/
def hollowModule (name : String) : Module := .ofManifest { name, types := [.node { name } [] []] }

/-- The entry of the class, wherever its module stands. -/
def hollowType (id : Nat) (name : String) : TypeEntry where
  id := id
  module := hollowModule name
  parent := none
  fullName := name
  info := { name }
  nested := []
  isIgnored := false
  members := []

/-- Two modules, one violation in each. -/
theorem findings_hollowModules :
    Validator.findings {} (.ofModules [hollowModule "Shop", hollowModule "Menu"])
      = [⟨⟨hollowType 0 "Shop", none⟩, .placeholderType, "Type is a placeholder with no members"⟩,
          ⟨⟨hollowType 1 "Menu", none⟩, .placeholderType, "Type is a placeholder with no members"⟩] := by
  have hsymbols : (SymbolTable.ofModules [hollowModule "Shop", hollowModule "Menu"]).symbols
      = [⟨hollowType 0 "Shop", none⟩, ⟨hollowType 1 "Menu", none⟩] := by
    rw [SymbolTable.symbols, ofModules_types]
    rfl
  rw [Validator.findings_eq, hsymbols]
  rfl

/-- The reports on the two modules list the same violations in the same order, whichever module comes
first. -/
theorem reports_hollowModules_swapped :
    let report := Validator.validate {} (.ofModules [hollowModule "Shop", hollowModule "Menu"])
    let report' := Validator.validate {} (.ofModules [hollowModule "Menu", hollowModule "Shop"])
    report.violations.length = 2 ∧ report.Reorders report' ∧ report.violations = report'.violations := by
  intro report report'
  obtain ⟨hreorders, hequal⟩ := module_order_is_irrelevant (fun _ => true) [] .standard
    (List.Perm.swap (hollowModule "Menu") (hollowModule "Shop") [])
  have hfindings : report.violations.Perm _ := Validator.perm_findings _ _
  rw [findings_hollowModules] at hfindings
  have hkeys : (report.violations.map Violation.sortKey).Nodup := by
    rw [(hfindings.map Violation.sortKey).nodup_iff]
    decide +kernel
  exact ⟨hfindings.length_eq, hreorders, hequal hkeys⟩

end CilLint
