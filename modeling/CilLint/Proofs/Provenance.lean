import CilLint.Proofs.Findings

/-!
# Reports with the findings behind them

A violation names its type, its member and its rule by texts, and different symbols can have equal
violations. To compare two reports it has to be known which symbol each violation is about.
`Validator.reported` is a report that still knows: the findings of a pass in the order of the report.
Without what they come from they are the violations of the report (`violations_validate`).

Findings are made symbol by symbol and, for each symbol, rule by rule (`findings_eq`). So a choice of
findings that goes by symbols and by rules is a pass over fewer symbols with fewer rules
(`filter_findings`), and since sorting commutes with leaving findings out, the same holds of reports.
-/

namespace CilLint

/-- An element of a list is the only one with its key if no two of them have the same key. -/
theorem filter_eq_singleton_of_nodup {α β : Type} [DecidableEq β] {key : α → β} {l : List α}
    (hnodup : (l.map key).Nodup) {a : α} (ha : a ∈ l) : (l.filter fun b => key b = key a) = [a] := by
  obtain ⟨before, after, rfl⟩ := List.append_of_mem ha
  -- The key occurs neither before the element nor after it.
  rw [List.map_append, List.map_cons, List.nodup_append] at hnodup
  obtain ⟨-, hafter, hdisjoint⟩ := hnodup
  have hbefore : (before.filter fun b => key b = key a) = [] := by
    refine List.filter_eq_nil_iff.mpr fun b hb heq => ?_
    exact hdisjoint _ (List.mem_map_of_mem hb) _ List.mem_cons_self (of_decide_eq_true heq)
  have hrest : (after.filter fun b => key b = key a) = [] := by
    refine List.filter_eq_nil_iff.mpr fun b hb heq => ?_
    apply (List.nodup_cons.mp hafter).1
    exact of_decide_eq_true heq ▸ List.mem_map_of_mem hb
  rw [List.filter_append, List.filter_cons_of_pos (by simp), hbefore, hrest, List.nil_append]

/-- What the order of violations goes by. -/
def Violation.sortKey (x : Violation) : String × String × String × Location :=
  (x.declaringType, x.member, x.rule, x.location)

/-- The order does not tell violations apart exactly if these four parts are the same. -/
theorem Violation.order_eq_iff {a b : Violation} : a.order b = .eq ↔ a.sortKey = b.sortKey := by
  have hlocation : a.location = b.location ↔
      a.location.file = b.location.file ∧ a.location.line = b.location.line := by
    cases a.location
    cases b.location
    exact Location.mk.injEq _ _ _ _ ▸ Iff.rfl
  unfold order
  rw [Ordering.then_eq_eq, Ordering.then_eq_eq, Ordering.then_eq_eq, Ordering.then_eq_eq]
  simp only [Std.LawfulEqCmp.compare_eq_iff_eq, sortKey, Prod.mk.injEq, hlocation]

namespace Validator

/-! ### Symbol by symbol -/

/-- What some rules find on a symbol. -/
def findingsOn (ctx : RuleContext) (rules : List Rule) (s : Symbol) : List Finding :=
  rules.filterMap fun r =>
    if r.appliesTo s.kind then (r.check ctx s).finding?.map (Finding.mk s r) else none

/-- What is found on a symbol: for each rule that looks at symbols of its kind, what it says, if it
says something. -/
theorem mem_findingsOn_iff {ctx : RuleContext} {rules : List Rule} {s : Symbol} {f : Finding} :
    f ∈ findingsOn ctx rules s ↔ f.symbol = s ∧ f.rule ∈ rules ∧ f.rule.appliesTo s.kind = true ∧
      f.rule.check ctx s = .found f.message := by
  simp only [findingsOn, List.mem_filterMap, Option.ite_none_right_eq_some, Option.map_eq_some_iff,
    Verdict.finding?_eq_some_iff]
  constructor
  · rintro ⟨r, hr, happlies, message, hfound, rfl⟩
    exact ⟨rfl, hr, happlies, hfound⟩
  · rintro ⟨rfl, hr, happlies, hfound⟩
    exact ⟨f.rule, hr, happlies, f.message, hfound, rfl⟩

/-- A finding knows the symbol that it is about and the rule that made it. -/
theorem mem_findingsOn {ctx : RuleContext} {rules : List Rule} {s : Symbol} {f : Finding}
    (h : f ∈ findingsOn ctx rules s) : f.symbol = s ∧ f.rule ∈ rules := by
  obtain ⟨hsymbol, hrule, -⟩ := mem_findingsOn_iff.mp h
  exact ⟨hsymbol, hrule⟩

/-- A rule finds one thing on a symbol, or nothing. So the rules behind the findings on one symbol are
some of the active rules, each at most once and in their order. -/
theorem map_rule_findingsOn_sublist (ctx : RuleContext) (rules : List Rule) (s : Symbol) :
    ((findingsOn ctx rules s).map Finding.rule).Sublist rules := by
  induction rules with
  | nil => exact .slnil
  | cons r rules ih =>
    -- The first rule finds nothing and is left out, or it finds something and is kept.
    rw [findingsOn, List.filterMap_cons]
    split
    · exact ih.cons r
    · rename_i f hf
      split_ifs at hf
      obtain ⟨message, -, rfl⟩ := Option.map_eq_some_iff.mp hf
      exact ih.cons_cons r

/-- The findings of fewer rules are those of all rules that come from one of the fewer. -/
theorem filter_findingsOn (ctx : RuleContext) (rules : List Rule) (s : Symbol) (q : Rule → Bool) :
    ((findingsOn ctx rules s).filter fun f => q f.rule) = findingsOn ctx (rules.filter q) s := by
  unfold findingsOn
  rw [List.filter_filterMap, List.filterMap_filter]
  refine List.filterMap_congr fun r _ => ?_
  -- A finding of the rule is kept exactly if the rule is.
  by_cases happlies : r.appliesTo s.kind = true
  · rw [if_pos happlies]
    cases (r.check ctx s).finding? <;> cases hq : q r <;> simp [hq]
  · rw [if_neg happlies]
    cases q r <;> rfl

/-- **Findings symbol by symbol.** Symbols come before rules, so the findings on one symbol stand
together, in the order of the rules. -/
theorem findings_eq (v : Validator) (t : SymbolTable) :
    v.findings t
      = (t.symbols.filter v.looksAt).flatMap (findingsOn (v.context t) v.activeRules) := by
  unfold findings applications
  rw [List.filterMap_filter, List.product, List.filterMap_flatMap, eligibleSymbols_eq]
  refine List.flatMap_congr fun s _ => ?_
  rw [List.filterMap_map]
  exact List.filterMap_congr fun r _ => rfl

/-- **Findings chosen by symbols and rules** are those of a pass over the chosen symbols with the
chosen rules. -/
theorem filter_findings (v : Validator) (t : SymbolTable) (p : Symbol → Bool) (q : Rule → Bool) :
    ((v.findings t).filter fun f => p f.symbol && q f.rule)
      = (t.symbols.filter fun s => v.looksAt s && p s).flatMap
          (findingsOn (v.context t) (v.activeRules.filter q)) := by
  have hfilter : (t.symbols.filter fun s => v.looksAt s && p s)
      = (t.symbols.filter v.looksAt).filter p := by
    rw [List.filter_filter]
    exact List.filter_congr fun s _ => Bool.and_comm _ _
  rw [findings_eq, List.filter_flatMap, hfilter]
  induction t.symbols.filter v.looksAt with
  | nil => rfl
  | cons s symbols ih =>
    -- All findings on one symbol are kept or left out together, as far as symbols go.
    have hsymbol : ((findingsOn (v.context t) v.activeRules s).filter fun f => p f.symbol && q f.rule)
        = (findingsOn (v.context t) v.activeRules s).filter fun f => p s && q f.rule := by
      refine List.filter_congr fun f hf => ?_
      rw [(mem_findingsOn hf).1]
    rw [List.flatMap_cons, ih, hsymbol]
    cases hp : p s with
    | true =>
      rw [List.filter_cons_of_pos hp, List.flatMap_cons, ← filter_findingsOn]
      simp only [Bool.true_and]
    | false =>
      rw [List.filter_cons_of_neg (by simp [hp])]
      simp only [Bool.false_and, List.filter_false, List.nil_append]

/-- No two symbols have the same handle, so a handle chooses one symbol or none. -/
theorem filter_looksAt_handle (v : Validator) {t : SymbolTable}
    (hhandles : (t.symbols.map Symbol.handle).Nodup) {s : Symbol} (hs : s ∈ t.symbols) :
    (t.symbols.filter fun s' => v.looksAt s' && decide (s'.handle = s.handle))
      = if v.looksAt s then [s] else [] := by
  rw [← List.filter_filter, filter_eq_singleton_of_nodup hhandles hs, List.filter_singleton]
  cases v.looksAt s <;> rfl

/-! ### In the order of the report -/

/-- **The findings of a pass in the order of the report.** -/
def reported (v : Validator) (t : SymbolTable) : List Finding :=
  sortOn Violation.order (Finding.violation v.weights) (v.findings t)

theorem perm_reported (v : Validator) (t : SymbolTable) : (v.reported t).Perm (v.findings t) :=
  perm_sortOn _

/-- A report sorts violations, and `reported` sorts findings by theirs. -/
theorem violations_eq_sortOn (v : Validator) (t : SymbolTable) :
    (v.validate t).violations
      = sortOn Violation.order id ((v.findings t).map (Finding.violation v.weights)) :=
  congrArg Report.sortViolations (v.violations_checkTypes_eq_findings t)

/-- **The violations of a report are those of the findings behind it.** Sorting findings by their
violations and then forgetting where they come from is sorting the violations. -/
theorem violations_validate (v : Validator) (t : SymbolTable) :
    (v.validate t).violations = (v.reported t).map (Finding.violation v.weights) := by
  rw [violations_eq_sortOn]
  exact (map_sortOn fun _ _ => rfl).symm

/-- Leaving findings out of a report is leaving them out before sorting. -/
theorem filter_reported (v : Validator) (t : SymbolTable) (p : Finding → Bool) :
    (v.reported t).filter p
      = sortOn Violation.order (Finding.violation v.weights) ((v.findings t).filter p) :=
  filter_sortOn p _

end Validator

end CilLint
