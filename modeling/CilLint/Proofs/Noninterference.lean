import CilLint.Proofs.Provenance
import CilLint.Proofs.Schedule

/-!
# Rules and modules do not get in each other's way

Two passes over one table may differ in the modules that are eligible, in the rules that are
registered and in those that are left out. Here it is shown that what they have in common, they report
alike: `SharedBy` picks the findings on modules that are eligible in both passes, by rules that both
passes apply, and the two reports have these in the same places relative to each other
(`passes_do_not_interfere`).

What is not obvious is the order. The two registries may list their common rules in any order, so
before sorting the common findings on one symbol stand in different orders. The sort makes up for
this. It tells different rules apart, and no registry has two rules with one id, so all that it leaves
in its place are findings of a single rule, and these stand in the order of the table
(`map_entry_filter_findings`).

`Isolates` spells out what this means for one change at a time. It holds of every pass, since the
findings on a symbol by a rule depend on nothing but the symbol, the rule and the table.
-/

namespace CilLint

/-- Two rules have one id and do the same. -/
structure Rule.Same (r r' : Rule) : Prop where
  id : r.id = r'.id
  kinds : r.appliesTo = r'.appliesTo
  check : r.check = r'.check

namespace Rule.Same

variable {a b c : Rule}

/-- Doing the same is an equivalence of rules. -/
theorem symm (h : a.Same b) : b.Same a := ⟨h.id.symm, h.kinds.symm, h.check.symm⟩

theorem trans (h : a.Same b) (h' : b.Same c) : a.Same c :=
  ⟨h.id.trans h'.id, h.kinds.trans h'.kinds, h.check.trans h'.check⟩

theorem refl (a : Rule) : a.Same a := ⟨rfl, rfl, rfl⟩

end Rule.Same

/-- A finding as a report shows it: the symbol and the violation. -/
def Finding.entry (weights : Weights Float) (f : Finding) : Symbol × Violation :=
  (f.symbol, f.violation weights)

namespace Validator

/-- A rule takes part in two passes. -/
def BothApply (v w : Validator) (r : Rule) : Prop :=
  (∃ a ∈ v.activeRules, a.Same r) ∧ ∃ b ∈ w.activeRules, b.Same r

/-- A finding is one that two passes have in common: it is on a module that is eligible in both, by a
rule that takes part in both. -/
def SharedBy (v w : Validator) (f : Finding) : Prop :=
  (v.eligible f.symbol.module.name && w.eligible f.symbol.module.name) = true ∧ v.BothApply w f.rule

/-! ### One rule at a time -/

section Shared

variable {v w : Validator}

/-- Taking part in two passes is a matter of what a rule does, not of which copy of it is meant. -/
theorem BothApply.congr {a b : Rule} (h : a.Same b) (hb : v.BothApply w a) : v.BothApply w b := by
  obtain ⟨⟨r, hr, hsame⟩, r', hr', hsame'⟩ := hb
  exact ⟨⟨r, hr, hsame.trans h⟩, r', hr', hsame'.trans h⟩

open Classical in
/-- For each id two passes have no common rule with it, or one each, which do the same. A pass applies
no two rules with one id, so it is enough to find one. -/
theorem filter_bothApply (hv : (v.activeRules.map Rule.id).Nodup)
    (hw : (w.activeRules.map Rule.id).Nodup) (id : String) :
    ((v.activeRules.filter fun r => r.id = id ∧ v.BothApply w r) = [] ∧
        (w.activeRules.filter fun r => r.id = id ∧ v.BothApply w r) = []) ∨
      ∃ a b, a.Same b ∧ (v.activeRules.filter fun r => r.id = id ∧ v.BothApply w r) = [a] ∧
        (w.activeRules.filter fun r => r.id = id ∧ v.BothApply w r) = [b] := by
  -- A common rule with the id is the only rule with it.
  have hsingle : ∀ {rules : List Rule}, (rules.map Rule.id).Nodup → ∀ r ∈ rules,
      r.id = id → v.BothApply w r →
        (rules.filter fun r => r.id = id ∧ v.BothApply w r) = [r] := by
    rintro rules hnodup r hr rfl hboth
    have honly := filter_eq_singleton_of_nodup hnodup hr
    have hsplit : (rules.filter fun r' => r'.id = r.id ∧ v.BothApply w r')
        = (rules.filter fun r' => r'.id = r.id).filter fun r' => v.BothApply w r' := by
      rw [List.filter_filter]
      exact List.filter_congr fun r' _ => by rw [Bool.and_comm, Bool.decide_and]
    rw [hsplit, honly]
    exact List.filter_eq_self.mpr (by simpa using hboth)
  by_cases hcommon : ∃ a ∈ v.activeRules, a.id = id ∧ v.BothApply w a
  · obtain ⟨a, ha, hid, hboth⟩ := hcommon
    obtain ⟨b, hb, hsame⟩ := hboth.2
    exact .inr ⟨a, b, hsame.symm, hsingle hv a ha hid hboth,
      hsingle hw b hb (hsame.id.trans hid) (hboth.congr hsame.symm)⟩
  · left
    refine ⟨List.filter_eq_nil_iff.mpr ?_, List.filter_eq_nil_iff.mpr ?_⟩
    · intro a ha hkept
      exact hcommon ⟨a, ha, of_decide_eq_true hkept⟩
    · -- A common rule of the second pass has a counterpart in the first one.
      intro b _ hkept
      obtain ⟨hid, hboth⟩ := of_decide_eq_true hkept
      obtain ⟨a, ha, hsame⟩ := hboth.1
      exact hcommon ⟨a, ha, hsame.id.trans hid, hboth.congr hsame.symm⟩

/-- Rules that do the same report the same about a symbol, down to the entry. -/
theorem map_entry_findingsOn {a b : Rule} (h : a.Same b) (ctx : RuleContext)
    (weights : Weights Float) (s : Symbol) :
    (findingsOn ctx [a] s).map (Finding.entry weights)
      = (findingsOn ctx [b] s).map (Finding.entry weights) := by
  -- Of the rule an entry has nothing but the id.
  have hviolation : ∀ message : String, Finding.entry weights ⟨s, a, message⟩
      = Finding.entry weights ⟨s, b, message⟩ := by
    intro message
    unfold Finding.entry Finding.violation
    rw [h.id]
  simp only [findingsOn, List.filterMap_cons, List.filterMap_nil, h.kinds, h.check]
  by_cases happlies : b.appliesTo s.kind = true
  · rw [if_pos happlies, if_pos happlies]
    cases (b.check ctx s).finding? with
    | none => rfl
    | some message => simp [hviolation]
  · rw [if_neg happlies, if_neg happlies]

open Classical in
/-- The common findings of two passes by the rule with one id are the same, in the order of the table.
With several rules the order on one symbol would be that of the registry, and it may differ. -/
theorem map_entry_filter_findings (hweights : v.weights = w.weights)
    (hv : (v.activeRules.map Rule.id).Nodup) (hw : (w.activeRules.map Rule.id).Nodup)
    (t : SymbolTable) (id : String) :
    ((v.findings t).filter fun f => f.rule.id = id ∧ v.SharedBy w f).map (Finding.entry v.weights)
      = ((w.findings t).filter fun f => f.rule.id = id ∧ v.SharedBy w f).map
          (Finding.entry v.weights) := by
  have hcontext : w.context t = v.context t := by
    unfold context
    rw [hweights]
  -- The choice goes by the symbol and by the rule.
  have hchoice : ∀ f : Finding, decide (f.rule.id = id ∧ v.SharedBy w f)
      = ((v.eligible f.symbol.module.name && w.eligible f.symbol.module.name) &&
          decide (f.rule.id = id ∧ v.BothApply w f.rule)) := by
    intro f
    rw [Bool.eq_iff_iff, decide_eq_true_eq, Bool.and_eq_true, decide_eq_true_eq]
    exact and_left_comm
  -- Of the common symbols both passes look at the same ones.
  have hsymbols : (t.symbols.filter fun s =>
        w.looksAt s && (v.eligible s.module.name && w.eligible s.module.name))
      = t.symbols.filter fun s =>
          v.looksAt s && (v.eligible s.module.name && w.eligible s.module.name) := by
    refine List.filter_congr fun s _ => ?_
    unfold looksAt
    cases v.eligible s.module.name <;> cases w.eligible s.module.name <;> simp
  simp only [hchoice]
  rw [v.filter_findings t (fun s => v.eligible s.module.name && w.eligible s.module.name)
      (fun r => decide (r.id = id ∧ v.BothApply w r)),
    w.filter_findings t (fun s => v.eligible s.module.name && w.eligible s.module.name)
      (fun r => decide (r.id = id ∧ v.BothApply w r)), hsymbols, hcontext, List.map_flatMap,
    List.map_flatMap]
  -- It remains to look at one symbol, on which there is at most one rule left in each pass.
  refine List.flatMap_congr fun s _ => ?_
  rcases filter_bothApply hv hw id with ⟨hnone, hnone'⟩ | ⟨a, b, hsame, hone, hone'⟩
  · rw [hnone, hnone']
  · rw [hone, hone', map_entry_findingsOn hsame]

open Classical in
/-- **What two passes have in common, they report alike.** Sorting is stable, so a sorted list is
known by its classes of equal keys (`sortOn_eq_of_classes`), and within a class there is only one
rule. -/
theorem map_entry_filter_reported (hweights : v.weights = w.weights)
    (hv : (v.activeRules.map Rule.id).Nodup) (hw : (w.activeRules.map Rule.id).Nodup)
    (t : SymbolTable) :
    ((v.reported t).filter fun f => v.SharedBy w f).map (Finding.entry v.weights)
      = ((w.reported t).filter fun f => v.SharedBy w f).map (Finding.entry w.weights) := by
  -- Violations with one key come from rules with one id.
  have hclass : ∀ (c : Violation) (fs : List Finding),
      ((fs.filter fun f => v.SharedBy w f).map (Finding.entry v.weights)).filter
          (fun e => c.order e.2 = .eq)
        = (((fs.filter fun f => f.rule.id = c.rule ∧ v.SharedBy w f).map
            (Finding.entry v.weights))).filter fun e => c.order e.2 = .eq := by
    intro c fs
    rw [List.filter_map, List.filter_map, List.filter_filter, List.filter_filter]
    congr 1
    refine List.filter_congr fun f _ => ?_
    rw [Bool.eq_iff_iff]
    simp only [Function.comp_apply, Bool.and_eq_true, decide_eq_true_eq]
    refine ⟨?_, fun h => ⟨h.1, h.2.2⟩⟩
    rintro ⟨hkey, hshared⟩
    have hrule := congrArg (fun k => k.2.2.1) (Violation.order_eq_iff.mp hkey)
    exact ⟨hkey, hrule.symm, hshared⟩
  -- Sorting findings sorts their entries, since both go by the violation.
  have hentries : ∀ fs : List Finding,
      (sortOn Violation.order (Finding.violation v.weights) fs).map (Finding.entry v.weights)
        = sortOn Violation.order Prod.snd (fs.map (Finding.entry v.weights)) :=
    fun _ => map_sortOn fun _ _ => rfl
  rw [filter_reported, filter_reported, ← hweights, hentries, hentries]
  -- What is left is one class at a time, and in each of them one rule.
  apply sortOn_eq_of_classes
  intro c
  rw [hclass, hclass, map_entry_filter_findings hweights hv hw t c.rule]

end Shared

/-! ### One change at a time -/

/-- A pass that looks at fewer modules. -/
def restrict (v : Validator) (keep : String → Bool) : Validator :=
  { v with eligible := fun name => v.eligible name && keep name }

/-- A pass that leaves one more rule out. -/
def without (v : Validator) (id : String) : Validator := { v with disabled := id :: v.disabled }

/-- A pass for which one more rule is registered. -/
def adding (v : Validator) (r : Rule) : Validator :=
  { v with registry := (v.registry.register r).2 }

/-- A pass in which the rule with an id does something else. -/
def replacing (v : Validator) (id : String) (check : RuleContext → Symbol → Verdict) : Validator :=
  { v with registry := ⟨v.registry.rules.map fun r => if r.id = id then { r with check } else r⟩ }

/-- **What it means that a pass keeps modules and rules apart:** one change changes the entries of one
module or one rule. -/
structure Isolates (v : Validator) (t : SymbolTable) : Prop where
  /-- Modules that are not looked at lose their own entries, -/
  restrict : ∀ keep : String → Bool,
    (v.restrict keep).reported t = (v.reported t).filter fun f => keep f.symbol.module.name
  /-- and yet all that their bodies use counts as used. -/
  references : ∀ keep : String → Bool,
    (v.restrict keep).context t = v.context t ∧ (v.context t).references.Exact t
  /-- A rule that is left out loses its own entries. -/
  without : ∀ id : String,
    (v.without id).reported t = (v.reported t).filter fun f => f.rule.id ≠ id
  /-- A new rule changes no entries of others, -/
  adding : ∀ r : Rule,
    (((v.adding r).reported t).filter fun f => f.rule.id ≠ r.id)
      = (v.reported t).filter fun f => f.rule.id ≠ r.id
  /-- nor does a rule that finds something else, gives up or breaks down, on whatever symbols. -/
  replacing : ∀ (id : String) (check : RuleContext → Symbol → Verdict),
    (((v.replacing id check).reported t).filter fun f => f.rule.id ≠ id)
      = (v.reported t).filter fun f => f.rule.id ≠ id

/-- Passes that look at the same symbols and apply the same rules, those with one id apart, have the
same entries apart from that id. The order of the rules has to be the same too. -/
theorem filter_reported_congr {v w : Validator} (t : SymbolTable) {id : String}
    (hweights : w.weights = v.weights) (heligible : w.eligible = v.eligible)
    (hrules : (w.activeRules.filter fun r => r.id ≠ id) = v.activeRules.filter fun r => r.id ≠ id) :
    ((w.reported t).filter fun f => f.rule.id ≠ id)
      = (v.reported t).filter fun f => f.rule.id ≠ id := by
  have hcontext : w.context t = v.context t := by
    unfold context
    rw [hweights]
  have hlooks : w.looksAt = v.looksAt := by
    funext s
    unfold looksAt
    rw [heligible]
  -- Findings by the other rules are findings of a pass with only the other rules.
  have hfindings : ((w.findings t).filter fun f => f.rule.id ≠ id)
      = (v.findings t).filter fun f => f.rule.id ≠ id := by
    have hw := w.filter_findings t (fun _ => true) fun r => r.id ≠ id
    have hv := v.filter_findings t (fun _ => true) fun r => r.id ≠ id
    simp only [Bool.true_and, Bool.and_true] at hw hv
    rw [hw, hv, hrules, hcontext, hlooks]
  rw [filter_reported, filter_reported, hfindings, hweights]

/-- Looking at fewer modules takes away their findings before sorting, and so after it. The index of
references is made from the whole table, so it stays as it was. -/
theorem reported_restrict (v : Validator) (t : SymbolTable) (keep : String → Bool) :
    (v.restrict keep).reported t = (v.reported t).filter fun f => keep f.symbol.module.name := by
  have hlooks : (v.restrict keep).looksAt = fun s => v.looksAt s && keep s.module.name := by
    funext s
    unfold looksAt Validator.restrict
    cases s.isIgnored <;> simp [Bool.and_assoc]
  have hfindings : (v.restrict keep).findings t
      = (v.findings t).filter fun f => keep f.symbol.module.name := by
    have hchosen := v.filter_findings t (fun s => keep s.module.name) fun _ => true
    simp only [Bool.and_true, List.filter_true] at hchosen
    rw [hchosen, findings_eq, hlooks]
    rfl
  rw [filter_reported, ← hfindings]
  rfl

/-- Leaving out a rule takes away its findings in the same way. -/
theorem reported_without (v : Validator) (t : SymbolTable) (id : String) :
    (v.without id).reported t = (v.reported t).filter fun f => f.rule.id ≠ id := by
  have hrules : (v.without id).activeRules = v.activeRules.filter fun r => r.id ≠ id := by
    unfold activeRules Validator.without
    rw [List.filter_filter]
    refine List.filter_congr fun r _ => ?_
    by_cases hid : r.id = id <;> simp [hid]
  have hfindings : (v.without id).findings t = (v.findings t).filter fun f => f.rule.id ≠ id := by
    have hchosen := v.filter_findings t (fun _ => true) fun r => r.id ≠ id
    simp only [Bool.true_and, Bool.and_true] at hchosen
    rw [hchosen, findings_eq, hrules]
    rfl
  rw [filter_reported, ← hfindings]
  rfl

/-- A rule that is registered comes last, or not at all if its id is taken. Either way the rules with
other ids are the same. -/
theorem filter_activeRules_adding (v : Validator) (r : Rule) :
    ((v.adding r).activeRules.filter fun r' => r'.id ≠ r.id)
      = v.activeRules.filter fun r' => r'.id ≠ r.id := by
  unfold activeRules Validator.adding Registry.register
  by_cases htaken : v.registry.contains r.id = true
  · rw [if_pos htaken]
  · rw [if_neg htaken, List.filter_append, List.filter_append]
    have hnone : ([r].filter fun r' => !v.disabled.contains r'.id).filter
        (fun r' => r'.id ≠ r.id) = [] := by
      refine List.filter_eq_nil_iff.mpr fun r' hr' => ?_
      rw [List.mem_singleton.mp (List.mem_filter.mp hr').1]
      simp
    rw [hnone, List.append_nil]

/-- Replacing a rule keeps its id, so the others are the same and leave out the same. What the new
rule does is not asked at all. -/
theorem filter_activeRules_replacing (v : Validator) (id : String)
    (check : RuleContext → Symbol → Verdict) :
    ((v.replacing id check).activeRules.filter fun r => r.id ≠ id)
      = v.activeRules.filter fun r => r.id ≠ id := by
  unfold activeRules Validator.replacing
  dsimp only
  induction v.registry.rules with
  | nil => rfl
  | cons r rules ih =>
    rw [List.map_cons]
    -- The rule that is replaced is dropped from both sides, if it is active at all.
    by_cases hid : r.id = id
    · rw [if_pos hid]
      simp only [List.filter_cons]
      split_ifs <;> simp_all
    · rw [if_neg hid]
      simp only [List.filter_cons]
      split_ifs <;> simp_all

/-- **Every pass keeps modules and rules apart.** Nothing is assumed of the rules: they may give up or
break down on any symbol. -/
theorem isolates (v : Validator) (t : SymbolTable) : v.Isolates t where
  restrict := v.reported_restrict t
  references := fun _ => ⟨rfl, ReferenceIndex.exact_ofTable t⟩
  without := v.reported_without t
  adding := fun r => filter_reported_congr t rfl rfl (v.filter_activeRules_adding r)
  replacing := fun id check =>
    filter_reported_congr t rfl rfl (v.filter_activeRules_replacing id check)

end Validator

open Classical in
/-- **Rules and modules do not get in each other's way.** Whatever two passes over a table with the
same weights look at and apply, they report alike what they have in common, symbol by symbol and in
the same order. Each of them keeps its modules and rules apart. -/
theorem passes_do_not_interfere (v w : Validator) (t : SymbolTable)
    (hweights : v.weights = w.weights) (hv : v.registry.ids.Nodup) (hw : w.registry.ids.Nodup) :
    ((v.reported t).filter fun f => v.SharedBy w f).map (Finding.entry v.weights)
        = ((w.reported t).filter fun f => v.SharedBy w f).map (Finding.entry w.weights) ∧
      ∀ u ∈ [v, w],
        (u.validate t).violations = (u.reported t).map (Finding.violation u.weights) ∧
          u.Isolates t := by
  refine ⟨?_, ?_⟩
  · exact Validator.map_entry_filter_reported hweights (Validator.nodup_ids_activeRules hv)
      (Validator.nodup_ids_activeRules hw) t
  · intro u _
    exact ⟨u.violations_validate t, u.isolates t⟩

/-- A pass without the rule that breaks down, over the one module. -/
def relaxed : Validator where
  registry := ⟨[wordyRule]⟩
  eligible := fun name => name == "Game"

open Classical in
/-- The rule that breaks down takes nothing away from the other one. -/
theorem entries_touchy :
    touchy.registry.ids.Nodup ∧ relaxed.registry.ids.Nodup ∧
      ((touchy.reported wordyTable).filter fun f => touchy.SharedBy relaxed f).map
          (Finding.entry .standard)
        = [(⟨wordyType, some wordyMember⟩,
            { rule := "wordy", declaringType := "Game.Loop", member := "Run",
              message := "Method is wordy", category := .other })] := by
  have hids : touchy.registry.ids.Nodup := by decide
  have hids' : relaxed.registry.ids.Nodup := by decide
  -- The second pass is simple enough to be run, and what it says carries over to the first.
  have hfinding : relaxed.reported wordyTable
      = [⟨⟨wordyType, some wordyMember⟩, wordyRule, "Method is wordy"⟩] :=
    sortOn_singleton _
  have hshared : touchy.SharedBy relaxed
      ⟨⟨wordyType, some wordyMember⟩, wordyRule, "Method is wordy"⟩ := by
    refine ⟨by decide, ⟨wordyRule, ?_, .refl _⟩, wordyRule, ?_, .refl _⟩
    · exact List.mem_cons_of_mem _ List.mem_cons_self
    · exact List.mem_cons_self
  refine ⟨hids, hids', ?_⟩
  have hcommon := (passes_do_not_interfere touchy relaxed wordyTable rfl hids hids').1
  rw [hfinding, List.filter_cons_of_pos (by simpa using hshared)] at hcommon
  have hcategory : Category.ofMessage "Method is wordy" = .other := by decide +kernel
  refine hcommon.trans ?_
  rw [List.filter_nil, List.map_singleton, Finding.entry, Finding.violation, hcategory]
  rfl

end CilLint
