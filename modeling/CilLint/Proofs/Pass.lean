import CilLint.Validator
import Mathlib.Data.List.Nodup
import Mathlib.Data.List.Perm.Basic

/-!
# What one rule contributes to a report

A pass nests three loops: over types, over the symbols of each type and over rules. Then it merges
the reports and sorts the violations. `perm_violations_of_rule` takes this apart for one rule: up to
order, the violations of a report that carry the id of the rule are its findings on the eligible
symbols. All that is needed of the other rules is that none has the same id, and registries see to
that (`Registry.nodup_ids_registerAll`).

`perm_violations_of_finding` is this for rules on members that find nothing in types made by the
compiler, when all modules are eligible: then the pass goes over all symbols that are not ignored.
-/

namespace CilLint

/-! ### Registered rules -/

namespace Registry

theorem contains_iff {r : Registry} {id : String} : r.contains id = true ↔ id ∈ r.ids := by
  rw [contains, ids, List.any_eq_true, List.mem_map]
  simp only [beq_iff_eq]

theorem registerAll_cons (r : Registry) (rule : Rule) (rules : List Rule) :
    (r.registerAll (rule :: rules)).2 = ((r.register rule).2.registerAll rules).2 := rfl

/-- Registering rules never makes two of them have the same id. One with an id that is taken is turned
away, and the registry stays as it was. -/
theorem nodup_ids_registerAll {r : Registry} (h : r.ids.Nodup) (rules : List Rule) :
    (r.registerAll rules).2.ids.Nodup := by
  induction rules generalizing r with
  | nil => exact h
  | cons rule rules ih =>
    rw [registerAll_cons]
    refine ih ?_
    rw [register]
    -- The rule is turned away, or its id is a new one.
    split_ifs with htaken
    · exact h
    · have hnew : rule.id ∉ r.ids := fun hmem => htaken (contains_iff.mpr hmem)
      change (r.rules ++ [rule] |>.map Rule.id).Nodup
      rw [List.map_append, List.map_singleton]
      exact h.append (List.nodup_singleton _) (by simpa using hnew)

/-- Rules that are registered stay so. A new rule is put behind the others or is turned away. -/
theorem subset_rules_registerAll (r : Registry) (rules : List Rule) :
    r.rules ⊆ (r.registerAll rules).2.rules := by
  induction rules generalizing r with
  | nil => exact List.Subset.refl _
  | cons rule rules ih =>
    rw [registerAll_cons]
    -- One step keeps all rules, and so do the others after it.
    refine List.Subset.trans ?_ (ih _)
    rw [register]
    split_ifs with htaken
    · exact List.Subset.refl _
    · exact List.subset_append_left _ _

end Registry

namespace Validator

/-- No two active rules have the same id if no two registered ones have. -/
theorem nodup_ids_activeRules {v : Validator} (h : v.registry.ids.Nodup) :
    (v.activeRules.map Rule.id).Nodup :=
  h.sublist (List.filter_sublist.map Rule.id)

section Builtin

variable {v : Validator} {custom : List Rule}

/-- If the built-in rules are registered, whatever is registered after them, then no two rules have
the same id. With `mem_rules_of_builtin` this gives what results on single rules ask of registries. -/
theorem nodup_ids_of_builtin (h : v.registry = (Registry.builtin.registerAll custom).2) :
    v.registry.ids.Nodup := by
  rw [h]
  exact Registry.nodup_ids_registerAll (by decide) custom

/-- Rules that are registered later do not push built-in ones out. -/
theorem mem_rules_of_builtin (h : v.registry = (Registry.builtin.registerAll custom).2) {r : Rule}
    (hr : r ∈ Rule.builtin) : r ∈ v.registry.rules := by
  rw [h]
  exact Registry.subset_rules_registerAll _ custom hr

/-- So a built-in rule takes part in passes unless its id is left out. -/
theorem mem_activeRules_of_builtin (h : v.registry = (Registry.builtin.registerAll custom).2)
    {r : Rule} (hr : r ∈ Rule.builtin) (henabled : r.id ∉ v.disabled) : r ∈ v.activeRules :=
  List.mem_filter.mpr ⟨mem_rules_of_builtin h hr, by simpa using henabled⟩

end Builtin

/-! ### Reports -/

/-- The violations of merged reports, one after another. Merging keeps their order, so all sorting is
left to the end of the pass. -/
theorem violations_mergeAll (reports : List Report) :
    (Report.mergeAll reports).violations = reports.flatMap Report.violations := by
  induction reports with
  | nil => rfl
  | cons r reports ih =>
    rw [Report.mergeAll, Report.merge, ih, List.flatMap_cons]

/-- The violations that a rule makes on a symbol. -/
def violationsOf (ctx : RuleContext) (r : Rule) (s : Symbol) : List Violation :=
  (checkRule ctx s r).violations

/-- A violation has the id of the rule that made it. -/
theorem rule_of_mem_violationsOf {ctx : RuleContext} {r : Rule} {s : Symbol} {x : Violation}
    (h : x ∈ violationsOf ctx r s) : x.rule = r.id := by
  rw [violationsOf, checkRule] at h
  split_ifs at h with happlies
  · rw [Option.mem_toList] at h
    obtain ⟨message, -, rfl⟩ := Option.map_eq_some_iff.mp h
    rfl
  · exact absurd h List.not_mem_nil

/-- The violations of a rule that finds something on a condition, which only symbols of its kinds
meet. So the kinds need not be asked for: where the condition holds they are right. -/
theorem violationsOf_eq {ctx : RuleContext} {r : Rule} {s : Symbol} {p : Bool} {message : String}
    (hcheck : r.check ctx s = if p then .found message else .clean)
    (happlies : p = true → r.appliesTo s.kind = true) :
    violationsOf ctx r s = if p then [violation ctx.weights s r.id message] else [] := by
  rw [violationsOf, checkRule, hcheck]
  cases p with
  | true =>
    rw [if_pos (happlies rfl)]
    rfl
  | false =>
    by_cases hkind : r.appliesTo s.kind = true
    · rw [if_pos hkind]
      rfl
    · rw [if_neg hkind]
      rfl

/-- If no two rules have the same id, the violations with an id are those of the rule with it. Two
rules with one id could not be told apart by their violations. -/
theorem filter_violations_of_rule {ctx : RuleContext} {rules : List Rule} {r : Rule}
    (hnodup : (rules.map Rule.id).Nodup) (hr : r ∈ rules) (s : Symbol) :
    (rules.flatMap fun r' => violationsOf ctx r' s).filter (fun x => x.rule == r.id)
      = violationsOf ctx r s := by
  -- A rule with another id loses all its violations, and the rule itself loses none.
  have hother : ∀ r' : Rule, r'.id ≠ r.id →
      (violationsOf ctx r' s).filter (fun x => x.rule == r.id) = [] := by
    intro r' hne
    refine List.filter_eq_nil_iff.mpr fun x hx => ?_
    rw [rule_of_mem_violationsOf hx, beq_iff_eq]
    exact hne
  have hself : (violationsOf ctx r s).filter (fun x => x.rule == r.id) = violationsOf ctx r s :=
    List.filter_eq_self.mpr fun x hx => beq_iff_eq.mpr (rule_of_mem_violationsOf hx)
  obtain ⟨before, after, rfl⟩ := List.append_of_mem hr
  rw [List.map_append, List.map_cons, List.nodup_append] at hnodup
  obtain ⟨-, hafter, hdisjoint⟩ := hnodup
  rw [List.filter_flatMap, List.flatMap_append, List.flatMap_cons, hself,
    List.flatMap_eq_nil_iff.mpr, List.flatMap_eq_nil_iff.mpr, List.nil_append, List.append_nil]
  · intro r' hr'
    refine hother r' fun heq => (List.nodup_cons.mp hafter).1 ?_
    exact heq ▸ List.mem_map_of_mem hr'
  · intro r' hr'
    exact hother r' (hdisjoint _ (List.mem_map_of_mem hr') _ List.mem_cons_self)

theorem violations_checkSymbol (ctx : RuleContext) (rules : List Rule) (s : Symbol) :
    (checkSymbol ctx rules s).violations = rules.flatMap fun r => violationsOf ctx r s := by
  rw [checkSymbol, violations_mergeAll, List.flatMap_map]
  rfl

/-- Before they are sorted, violations stand in the order of symbols and rules. The three loops of a
pass become two, over all eligible symbols and over rules. -/
theorem violations_checkTypes (v : Validator) (ctx : RuleContext) :
    (v.checkTypes ctx).violations
      = (v.eligibleSymbols ctx.table).flatMap fun s =>
          v.activeRules.flatMap fun r => violationsOf ctx r s := by
  -- The loop over symbols, inside the one over types.
  have hsymbols : ∀ symbols : List Symbol,
      (symbols.map fun s =>
          if s.isIgnored then ({ ignored := 1 } : Report)
          else checkSymbol ctx v.activeRules s).flatMap Report.violations
        = (symbols.filter fun s => !s.isIgnored).flatMap fun s =>
            v.activeRules.flatMap fun r => violationsOf ctx r s := by
    intro symbols
    induction symbols with
    | nil => rfl
    | cons s symbols ih =>
      rw [List.map_cons, List.flatMap_cons, ih]
      cases hignored : s.isIgnored with
      | true => simp [hignored]
      | false =>
        rw [List.filter_cons_of_pos (by simp [hignored]), List.flatMap_cons, if_neg (by simp),
          violations_checkSymbol]
  -- Then the loop over types, of which those that are not eligible add nothing.
  rw [checkTypes, violations_mergeAll, eligibleSymbols]
  induction ctx.table.types with
  | nil => rfl
  | cons t types ih =>
    rw [List.map_cons, List.flatMap_cons, ih]
    cases heligible : v.eligibleType t with
    | false => simp [heligible]
    | true =>
      rw [List.filter_cons_of_pos heligible, List.flatMap_cons, List.filter_append,
        List.flatMap_append, if_pos rfl, checkType, violations_mergeAll, hsymbols]

/-- **The violations of one rule** are its findings on the eligible symbols. They stand in the order
of a sorted report, so this is up to order. -/
theorem perm_violations_of_rule (v : Validator) (t : SymbolTable) {r : Rule}
    (hnodup : (v.activeRules.map Rule.id).Nodup) (hr : r ∈ v.activeRules) :
    ((v.validate t).violations.filter fun x => x.rule == r.id).Perm
      ((v.eligibleSymbols t).flatMap (violationsOf (v.context t) r)) := by
  -- Sorting and the figures that are filled in do not change which violations there are.
  have hsort : (v.validate t).violations.Perm (v.checkTypes (v.context t)).violations :=
    List.mergeSort_perm _ _
  refine (hsort.filter _).trans (.of_eq ?_)
  rw [violations_checkTypes, List.filter_flatMap]
  refine List.flatMap_congr fun s _ => ?_
  exact filter_violations_of_rule hnodup hr s

theorem eligibleType_of_mem {v : Validator} (heligible : ∀ name, v.eligible name = true)
    {t : TypeEntry} (hgenerated : t.info.isCompilerGenerated = false) : v.eligibleType t = true := by
  rw [eligibleType, hgenerated, heligible]
  rfl

theorem declaringType_of_mem_symbols {t : TypeEntry} {s : Symbol} (h : s ∈ t.symbols) :
    s.declaringType = t := by
  rcases List.mem_cons.mp h with rfl | hmem
  · rfl
  · obtain ⟨m, -, rfl⟩ := List.mem_map.mp hmem
    rfl

/-- What holds of no symbol in a type that the compiler made is not lost when these are left out.
Rules on members say so themselves, by not finding anything there. -/
theorem filter_eligibleSymbols {v : Validator} (heligible : ∀ name, v.eligible name = true)
    {p : Symbol → Bool}
    (hgenerated : ∀ s, p s = true → s.declaringType.info.isCompilerGenerated = false)
    (t : SymbolTable) :
    (v.eligibleSymbols t).filter p = t.symbols.filter fun s => !s.isIgnored && p s := by
  rw [eligibleSymbols, SymbolTable.symbols, List.filter_filter]
  simp only [Bool.and_comm (p _)]
  induction t.types with
  | nil => rfl
  | cons e types ih =>
    rw [List.flatMap_cons, List.filter_append, ← ih]
    cases hcase : v.eligibleType e with
    | true => rw [List.filter_cons_of_pos hcase, List.flatMap_cons, List.filter_append]
    | false =>
      -- The type was made by the compiler, so there is nothing in it to lose.
      have hnone : e.symbols.filter (fun s => !s.isIgnored && p s) = [] := by
        refine List.filter_eq_nil_iff.mpr fun s hs hp => ?_
        have hclean := hgenerated s (Bool.and_eq_true_iff.mp hp).2
        rw [declaringType_of_mem_symbols hs] at hclean
        rw [eligibleType_of_mem heligible hclean] at hcase
        cases hcase
      rw [List.filter_cons_of_neg (by simp [hcase]), hnone, List.nil_append]

/-- **The violations of one rule on members,** when all modules are eligible. What the rule finds may
have different messages on different symbols. -/
theorem perm_violations_of_finding {v : Validator} (t : SymbolTable) {r : Rule}
    (hnodup : (v.activeRules.map Rule.id).Nodup) (hr : r ∈ v.activeRules)
    (heligible : ∀ name, v.eligible name = true) {p : Symbol → Bool} {message : Symbol → String}
    (hfinds : ∀ s, violationsOf (v.context t) r s
      = if p s then [violation v.weights s r.id (message s)] else [])
    (hgenerated : ∀ s, p s = true → s.declaringType.info.isCompilerGenerated = false) :
    ((v.validate t).violations.filter fun x => x.rule == r.id).Perm
      ((t.symbols.filter fun s => !s.isIgnored && p s).map fun s =>
        violation v.weights s r.id (message s)) := by
  refine (v.perm_violations_of_rule t hnodup hr).trans (.of_eq ?_)
  -- From here on both sides go over the same symbols, one by one.
  rw [← filter_eligibleSymbols heligible hgenerated]
  induction v.eligibleSymbols t with
  | nil => rfl
  | cons s symbols ih =>
    rw [List.flatMap_cons, ih, hfinds]
    cases hp : p s with
    | true =>
      rw [List.filter_cons_of_pos hp, List.map_cons]
      rfl
    | false =>
      rw [List.filter_cons_of_neg (by simp [hp])]
      rfl

end Validator

end CilLint
