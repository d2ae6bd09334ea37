import CilLint.Proofs.Growth
import CilLint.Proofs.Provenance

/-!
# The list of dead members and the report agree

There are two ways to ask for dead members. `SymbolTable.deadMembers` lists them: it goes over all
symbols and asks the index about each of them. A pass reports them: it goes over eligible symbols only,
and each of three rules asks about members of one kind. Here the two are shown to come to the same.

* **Types that the compiler made** are left out by passes. They are not left out by the list, but
  their members are excluded from being dead (`isCompilerGenerated_of_isDead`).
* **Kinds.** A member is dead if one of three tests says so. Each test is met by members of one kind
  only, which is the kind that the rule with this test looks at. So exactly one rule is asked about
  each member (`filter_usageRules`), and it finds something exactly if the member is dead
  (`findingsOn_onDead`).
-/

namespace CilLint

/-- The rule that finds dead members of a kind. -/
def Rule.onDead? : SymbolKind → Option Rule
  | .field => some .unusedField
  | .method => some .unusedMethod
  | .property => some .unusedProperty
  | _ => none

/-! ### Rules -/

section Rules

variable {rules : List Rule}

/-- Of some rules with different ids, which include the three on dead members, the one that is asked
about members of a kind. -/
theorem mem_usageIds_and_appliesTo_iff (hnodup : (rules.map Rule.id).Nodup)
    (husage : ∀ r ∈ [Rule.unusedField, Rule.unusedMethod, Rule.unusedProperty], r ∈ rules)
    {r : Rule} (hr : r ∈ rules) (kind : SymbolKind) :
    (r.id ∈ Rule.usageIds ∧ r.appliesTo kind = true) ↔ Rule.onDead? kind = some r := by
  refine ⟨?_, ?_⟩
  · rintro ⟨hid, happlies⟩
    -- No other rule has the id of one of the three.
    have heq : ∀ u ∈ [Rule.unusedField, Rule.unusedMethod, Rule.unusedProperty],
        r.id = u.id → r = u := fun u hu h => List.inj_on_of_nodup_map hnodup hr (husage u hu) h
    simp only [Rule.usageIds, List.mem_cons, List.not_mem_nil, or_false] at hid
    rcases hid with hid | hid | hid
    · obtain rfl := heq .unusedField (by simp) hid
      obtain rfl : kind = .field := by simpa [Rule.appliesTo, Rule.unusedField] using happlies
      rfl
    · obtain rfl := heq .unusedMethod (by simp) hid
      obtain rfl : kind = .method := by simpa [Rule.appliesTo, Rule.unusedMethod] using happlies
      rfl
    · obtain rfl := heq .unusedProperty (by simp) hid
      obtain rfl : kind = .property := by simpa [Rule.appliesTo, Rule.unusedProperty] using happlies
      rfl
  · intro honly
    cases kind <;> simp only [Rule.onDead?, Option.some.injEq, reduceCtorEq] at honly
    all_goals
      subst honly
      decide

/-- **One rule is asked about members of each kind,** or none if members of the kind are never
dead. -/
theorem filter_usageRules (hnodup : (rules.map Rule.id).Nodup)
    (husage : ∀ r ∈ [Rule.unusedField, Rule.unusedMethod, Rule.unusedProperty], r ∈ rules)
    (kind : SymbolKind) :
    (rules.filter fun r => r.id ∈ Rule.usageIds && r.appliesTo kind)
      = (Rule.onDead? kind).toList := by
  have hiff := fun r hr => mem_usageIds_and_appliesTo_iff hnodup husage (r := r) hr kind
  cases honly : Rule.onDead? kind with
  -- No rule of the three looks at this kind.
  | none =>
    refine List.filter_eq_nil_iff.mpr fun r hr hkept => ?_
    rw [Bool.and_eq_true, decide_eq_true_eq, hiff r hr, honly] at hkept
    cases hkept
  -- One does, and with different ids it is the only one that is left.
  | some u =>
    have hu : u ∈ rules := by
      apply husage
      cases kind <;> simp only [Rule.onDead?, Option.some.injEq, reduceCtorEq] at honly
      all_goals simp [← honly]
    rw [Option.toList_some, ← filter_eq_singleton_of_nodup hnodup hu]
    refine List.filter_congr fun r hr => ?_
    rw [Bool.eq_iff_iff, Bool.and_eq_true, decide_eq_true_eq, decide_eq_true_eq, hiff r hr, honly,
      Option.some.injEq]
    exact ⟨fun h => h ▸ rfl, fun h => (List.inj_on_of_nodup_map hnodup hr hu h).symm⟩

end Rules

namespace Validator

/-- Rules that do not look at symbols of a kind find nothing there. -/
theorem findingsOn_filter_appliesTo (ctx : RuleContext) (rules : List Rule) (s : Symbol) :
    findingsOn ctx (rules.filter fun r => r.appliesTo s.kind) s = findingsOn ctx rules s := by
  unfold findingsOn
  rw [List.filterMap_filter]
  refine List.filterMap_congr fun r _ => ?_
  by_cases happlies : r.appliesTo s.kind = true
  · rw [if_pos happlies, if_pos happlies]
  · rw [if_neg happlies, if_neg happlies]

/-- A rule that looks at a symbol and finds something on a condition has one finding or none. -/
theorem findingsOn_singleton {ctx : RuleContext} {r : Rule} {s : Symbol} {p : Bool}
    {message : String} (happlies : r.appliesTo s.kind = true)
    (hcheck : r.check ctx s = if p then .found message else .clean) :
    findingsOn ctx [r] s = if p then [⟨s, r, message⟩] else [] := by
  rw [findingsOn, List.filterMap_cons, if_pos happlies, hcheck]
  cases p <;> rfl

end Validator

/-! ### Dead members -/

section Dead

variable {s : Symbol}

/-- Of the three tests only one can be met by a field, since each of them asks for a kind first.
Methods and properties are alike in this. -/
theorem isDead_of_field (index : ReferenceIndex) (h : s.kind = .field) :
    index.isDead s = index.isUnusedField s := by
  rw [Bool.eq_iff_iff]
  simp [ReferenceIndex.isDead, ReferenceIndex.isUnusedMethod, ReferenceIndex.isUnusedProperty, h]

theorem isDead_of_method (index : ReferenceIndex) (h : s.kind = .method) :
    index.isDead s = index.isUnusedMethod s := by
  rw [Bool.eq_iff_iff]
  simp [ReferenceIndex.isDead, ReferenceIndex.isUnusedField, ReferenceIndex.isUnusedProperty, h]

theorem isDead_of_property (index : ReferenceIndex) (h : s.kind = .property) :
    index.isDead s = index.isUnusedProperty s := by
  rw [Bool.eq_iff_iff]
  simp [ReferenceIndex.isDead, ReferenceIndex.isUnusedField, ReferenceIndex.isUnusedMethod, h]

/-- Symbols of all other kinds are never dead. -/
theorem isDead_of_onDead?_eq_none (index : ReferenceIndex) (h : Rule.onDead? s.kind = none) :
    index.isDead s = false := by
  cases hkind : s.kind <;> rw [hkind] at h <;>
    simp_all [Rule.onDead?, ReferenceIndex.isDead, ReferenceIndex.isUnusedField,
      ReferenceIndex.isUnusedMethod, ReferenceIndex.isUnusedProperty]

/-- The rule for a kind looks at its members, and it finds something in the dead ones. -/
theorem check_of_onDead?_eq_some (ctx : RuleContext) {r : Rule}
    (h : Rule.onDead? s.kind = some r) :
    r.appliesTo s.kind = true ∧ ∃ message,
      r.check ctx s = if ctx.references.isDead s then .found message else .clean := by
  cases hkind : s.kind <;> rw [hkind] at h <;>
    simp only [Rule.onDead?, Option.some.injEq, reduceCtorEq] at h <;> subst h
  case field => exact ⟨rfl, _, by rw [isDead_of_field _ hkind]; rfl⟩
  case method => exact ⟨rfl, _, by rw [isDead_of_method _ hkind]; rfl⟩
  case property => exact ⟨rfl, _, by rw [isDead_of_property _ hkind]; rfl⟩

/-- **A member is dead exactly if the rule for its kind finds something.** -/
theorem findingsOn_onDead (ctx : RuleContext) (s : Symbol) :
    (ctx.references.isDead s = true → ∃ r message, Rule.onDead? s.kind = some r ∧
        Validator.findingsOn ctx (Rule.onDead? s.kind).toList s = [⟨s, r, message⟩]) ∧
      (ctx.references.isDead s = false →
        Validator.findingsOn ctx (Rule.onDead? s.kind).toList s = []) := by
  cases hrule : Rule.onDead? s.kind with
  | none =>
    have halive := isDead_of_onDead?_eq_none ctx.references hrule
    exact ⟨fun hdead => absurd (halive.symm.trans hdead) (by decide), fun _ => rfl⟩
  | some r =>
    obtain ⟨happlies, message, hcheck⟩ := check_of_onDead?_eq_some ctx hrule
    rw [Option.toList_some, Validator.findingsOn_singleton happlies hcheck]
    exact ⟨fun hdead => ⟨r, message, rfl, if_pos hdead⟩, fun halive => if_neg (by simp [halive])⟩

/-- No member of a type that the compiler made is dead: all three tests leave out what is excluded,
and these members are. So it does not matter that passes leave out such types and the list does
not. -/
theorem isCompilerGenerated_of_isDead {index : ReferenceIndex} (h : index.isDead s = true) :
    s.declaringType.info.isCompilerGenerated = false := by
  have hexcluded : s.kind ≠ .type ∧ exclusion? s = none := by
    simp only [ReferenceIndex.isDead, ReferenceIndex.isUnusedField, ReferenceIndex.isUnusedMethod,
      ReferenceIndex.isUnusedProperty, Bool.or_eq_true, Bool.and_eq_true, beq_iff_eq,
      Option.isNone_iff_eq_none] at h
    rcases h with (h | h) | h
    · exact ⟨by simp [h.1.1], h.1.2⟩
    · exact ⟨by simp [h.1.1.1], h.1.2⟩
    · exact ⟨by simp [h.1.1], h.1.2⟩
  exact isGenerated_of_exclusion? hexcluded.1 hexcluded.2

end Dead

/-! ### Passes -/

section Passes

variable {v : Validator}

/-- With the built-in rules, and whatever is registered after them, the three rules are active unless
they are left out. -/
theorem usageRules_active {custom : List Rule}
    (hregistry : v.registry = (Registry.builtin.registerAll custom).2)
    (henabled : ∀ id ∈ Rule.usageIds, id ∉ v.disabled) :
    ∀ r ∈ [Rule.unusedField, Rule.unusedMethod, Rule.unusedProperty], r ∈ v.activeRules := by
  intro r hr
  have hbuiltin : r ∈ Rule.builtin ∧ r.id ∈ Rule.usageIds := by
    simp only [List.mem_cons, List.not_mem_nil, or_false] at hr
    rcases hr with rfl | rfl | rfl <;> exact ⟨by simp [Rule.builtin], by decide⟩
  exact Validator.mem_activeRules_of_builtin hregistry hbuiltin.1 (henabled _ hbuiltin.2)

/-- What the three rules find in a pass over all modules, in the order of the table. For each symbol
that the pass looks at, only the rule for its kind is left. -/
theorem filter_usage_findings (hnodup : (v.activeRules.map Rule.id).Nodup)
    (husage : ∀ r ∈ [Rule.unusedField, Rule.unusedMethod, Rule.unusedProperty], r ∈ v.activeRules)
    (t : SymbolTable) (p : Symbol → Bool) :
    ((v.findings t).filter fun f => p f.symbol && f.rule.id ∈ Rule.usageIds)
      = (t.symbols.filter fun s => v.looksAt s && p s).flatMap fun s =>
          Validator.findingsOn (v.context t) (Rule.onDead? s.kind).toList s := by
  rw [v.filter_findings t p fun r => r.id ∈ Rule.usageIds]
  refine List.flatMap_congr fun s _ => ?_
  -- Rules on other kinds may be added, since they find nothing.
  rw [← Validator.findingsOn_filter_appliesTo, List.filter_filter, ← filter_usageRules hnodup husage]
  congr 1
  exact List.filter_congr fun r _ => Bool.and_comm _ _

/-- A pass over all modules looks at every dead member that is not ignored. -/
theorem looksAt_of_isDead (heligible : ∀ name, v.eligible name = true) {index : ReferenceIndex}
    {s : Symbol} (h : index.isDead s = true) : v.looksAt s = !s.isIgnored := by
  unfold Validator.looksAt
  rw [isCompilerGenerated_of_isDead h, heligible]
  rfl

/-- **The symbols behind the findings are the dead members,** in the order of the table. -/
theorem map_symbol_usage_findings (hnodup : (v.activeRules.map Rule.id).Nodup)
    (husage : ∀ r ∈ [Rule.unusedField, Rule.unusedMethod, Rule.unusedProperty], r ∈ v.activeRules)
    (heligible : ∀ name, v.eligible name = true) (t : SymbolTable) :
    ((v.findings t).filter fun f => f.rule.id ∈ Rule.usageIds).map Finding.symbol
      = t.deadMembers (.ofTable t) := by
  have hfindings := filter_usage_findings hnodup husage t fun _ => true
  simp only [Bool.true_and, Bool.and_true] at hfindings
  rw [hfindings, SymbolTable.deadMembers, ← Validator.filter_eligibleSymbols heligible
    (fun _ => isCompilerGenerated_of_isDead), Validator.eligibleSymbols_eq]
  -- Each symbol that the pass looks at adds itself to both lists if it is dead, and otherwise
  -- nothing.
  induction t.symbols.filter v.looksAt with
  | nil => rfl
  | cons s symbols ih =>
    obtain ⟨hdead, halive⟩ := findingsOn_onDead (v.context t) s
    rw [List.flatMap_cons, List.map_append, ih]
    cases hcase : (ReferenceIndex.ofTable t).isDead s with
    | true =>
      obtain ⟨r, message, -, hone⟩ := hdead hcase
      rw [hone, List.filter_cons_of_pos hcase]
      rfl
    | false =>
      rw [halive hcase, List.filter_cons_of_neg (by simp [hcase])]
      rfl

/-- The findings of the three rules on one symbol. A handle picks one symbol, and for this symbol one
rule is left, so sorting has nothing to do. -/
theorem filter_usage_handle (hnodup : (v.activeRules.map Rule.id).Nodup)
    (husage : ∀ r ∈ [Rule.unusedField, Rule.unusedMethod, Rule.unusedProperty], r ∈ v.activeRules)
    {t : SymbolTable} (hhandles : (t.symbols.map Symbol.handle).Nodup) {s : Symbol}
    (hs : s ∈ t.symbols) :
    (((v.reported t).filter fun f => f.rule.id ∈ Rule.usageIds).filter fun f =>
        f.symbol.handle = s.handle)
      = if v.looksAt s then Validator.findingsOn (v.context t) (Rule.onDead? s.kind).toList s
        else [] := by
  have hfindings := filter_usage_findings hnodup husage t fun s' => s'.handle = s.handle
  rw [v.filter_looksAt_handle hhandles hs] at hfindings
  rw [List.filter_filter, Validator.filter_reported, hfindings]
  by_cases hlooks : v.looksAt s = true
  · rw [if_pos hlooks, if_pos hlooks, List.flatMap_singleton]
    -- One finding or none is in order as it is.
    obtain ⟨hdead, halive⟩ := findingsOn_onDead (v.context t) s
    cases hcase : (v.context t).references.isDead s with
    | true =>
      obtain ⟨r, message, -, hsingle⟩ := hdead hcase
      rw [hsingle, sortOn_singleton]
    | false => rw [halive hcase, sortOn_nil]
  · rw [if_neg hlooks, if_neg hlooks, List.flatMap_nil, sortOn_nil]

end Passes

/-- **What is reported as dead is what is listed as dead.** If no two active rules have the same id,
the three rules on dead members are active, and all modules are eligible, then the violations of these
rules in the report on some modules come from one finding for each dead member of the table. It is a
finding of the rule for the kind of the member. There is none on any other symbol. -/
theorem dead_members_reported_once (v : Validator) (hnodup : (v.activeRules.map Rule.id).Nodup)
    (husage : ∀ r ∈ [Rule.unusedField, Rule.unusedMethod, Rule.unusedProperty], r ∈ v.activeRules)
    (heligible : ∀ name, v.eligible name = true) (modules : List Module) :
    let t := SymbolTable.ofModules modules
    let dead := t.deadMembers (.ofTable t)
    let usage := (v.reported t).filter fun f => f.rule.id ∈ Rule.usageIds
    ((v.validate t).violations.filter fun x => x.rule ∈ Rule.usageIds)
        = usage.map (Finding.violation v.weights) ∧
      (usage.map Finding.symbol).Perm dead ∧
      (t.symbols.map Symbol.handle).Nodup ∧
      ∀ s ∈ t.symbols,
        (s ∈ dead → ∃ r message, Rule.onDead? s.kind = some r ∧
          (usage.filter fun f => f.symbol.handle = s.handle) = [⟨s, r, message⟩]) ∧
        (s ∉ dead → (usage.filter fun f => f.symbol.handle = s.handle) = []) := by
  intro t dead usage
  have hhandles : (t.symbols.map Symbol.handle).Nodup := nodup_handles modules
  refine ⟨?_, ?_, hhandles, ?_⟩
  · rw [v.violations_validate, List.filter_map]
    rfl
  · -- Sorting the findings changes their order only.
    have hperm := ((v.perm_reported t).filter fun f => f.rule.id ∈ Rule.usageIds).map Finding.symbol
    exact hperm.trans (.of_eq (map_symbol_usage_findings hnodup husage heligible t))
  · intro s hs
    obtain ⟨hdead, halive⟩ := findingsOn_onDead (v.context t) s
    have hfilter := filter_usage_handle hnodup husage hhandles hs
    refine ⟨?_, ?_⟩
    · intro hmem
      obtain ⟨-, hlisted⟩ := List.mem_filter.mp hmem
      obtain ⟨hignored, hcase⟩ := Bool.and_eq_true_iff.mp hlisted
      obtain ⟨r, message, hrule, hone⟩ := hdead hcase
      refine ⟨r, message, hrule, hfilter.trans ?_⟩
      rw [if_pos ((looksAt_of_isDead heligible hcase).trans hignored), hone]
    · intro hmem
      refine hfilter.trans ?_
      cases hcase : (ReferenceIndex.ofTable t).isDead s with
      | false => rw [halive hcase, ite_self]
      | true =>
        -- The member is dead and not listed, so it is ignored.
        have hignored : v.looksAt s = false := by
          rw [looksAt_of_isDead heligible hcase, ← Bool.not_eq_true]
          exact fun hkept => hmem (List.mem_filter.mpr ⟨hs, by rw [hkept, hcase]; rfl⟩)
        rw [if_neg (by simp [hignored])]

/-- The one method of `selfCallerModule` is reported once, by the rule on methods. Its type is not
reported as dead. -/
theorem reported_once_selfCaller :
    ∃ message,
      (((Validator.reported {} (.ofModules [selfCallerModule])).filter fun f =>
          f.rule.id ∈ Rule.usageIds).filter fun f => f.symbol.handle = ⟨0, some 0⟩)
        = [⟨⟨selfCallerType, some selfCaller⟩, .unusedMethod, message⟩] ∧
      (((Validator.reported {} (.ofModules [selfCallerModule])).filter fun f =>
          f.rule.id ∈ Rule.usageIds).filter fun f => f.symbol.handle = ⟨0, none⟩) = [] := by
  have hsymbols : (SymbolTable.ofModules [selfCallerModule]).symbols
      = [⟨selfCallerType, none⟩, ⟨selfCallerType, some selfCaller⟩] := by
    rw [SymbolTable.symbols, types_selfCaller]
    rfl
  have hregistry : ({} : Validator).registry = (Registry.builtin.registerAll []).2 := rfl
  obtain ⟨-, -, -, honce⟩ := dead_members_reported_once {}
    (Validator.nodup_ids_activeRules (Validator.nodup_ids_of_builtin hregistry))
    (usageRules_active hregistry fun _ _ => List.not_mem_nil) (fun _ => rfl) [selfCallerModule]
  rw [hsymbols] at honce
  have hunused := (Bool.and_eq_true_iff.mp (isDeadMethod_iff.mpr isDeadMethod_selfCaller)).2
  have hdead : (ReferenceIndex.ofTable (.ofModules [selfCallerModule])).isDead
      ⟨selfCallerType, some selfCaller⟩ = true := (isDead_of_method _ rfl).trans hunused
  -- The method is on the list of dead members, and its type is not.
  obtain ⟨r, message, hrule, hone⟩ := (honce ⟨selfCallerType, some selfCaller⟩ (by simp)).1
    (List.mem_filter.mpr ⟨by rw [hsymbols]; simp, by rw [hdead]; rfl⟩)
  obtain rfl : Rule.unusedMethod = r := Option.some.inj hrule
  refine ⟨message, hone, (honce ⟨selfCallerType, none⟩ (by simp)).2 fun hmem => ?_⟩
  exact absurd (List.mem_filter.mp hmem).2
    (by rw [isDead_of_onDead?_eq_none (s := ⟨selfCallerType, none⟩) _ rfl]; decide)

end CilLint
