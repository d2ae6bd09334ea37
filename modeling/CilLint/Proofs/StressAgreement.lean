import CilLint.Proofs.Findings
import CilLint.Proofs.Interleaving
import Mathlib.Algebra.BigOperators.Ring.List

/-!
# Stress runs and passes count the same

A pass and a stress run share nothing but the rules: a pass goes over types, symbols and rules and
merges reports, and an actor of a stress run goes over a list of symbols with one rule and adds up
numbers. `Agrees` says what the numbers of a run must be by those of a pass over the same table.

* What an actor counts in a sweep is said by counting symbols (`sweep_eq`). The violations of a report
  with the id of a rule are as many (`countP_violations_of_rule`), and so are the pairs in a pass on
  which the rule went wrong (`countP_faults_of_rule`). Both need that no other rule has the same id.
* Adding up over all rules counts all pairs on which a rule went wrong (`sum_countP_comm`).

`Returns` are the results that a run can have under any schedule, and by `Proofs.Interleaving` there is
only one (`returns_iff`).
-/

namespace CilLint

/-! ### Counting pairs -/

/-- Pairs can be counted by their first parts or by their second parts. A pass goes over symbols
first, and a run over rules. -/
theorem sum_countP_comm {α β : Type} (q : α → β → Bool) (as : List α) (bs : List β) :
    (bs.map fun b => as.countP fun a => q a b).sum = (as.map fun a => bs.countP (q a)).sum := by
  induction as with
  | nil => simp
  | cons a as ih =>
    have hcons : ∀ b, (a :: as).countP (fun a => q a b)
        = (as.countP fun a => q a b) + (q a b).toNat := by
      intro b
      rw [List.countP_cons]
      cases q a b <;> rfl
    simp only [hcons]
    rw [List.sum_map_add, ih, sum_map_toNat, List.map_cons, List.sum_cons, Nat.add_comm]

/-- Among rules with different ids, only one can have a given id. So counting the rules that have it
and some property is asking whether this one has the property. -/
theorem countP_of_nodup_ids {rules : List Rule} {r : Rule} (hnodup : (rules.map Rule.id).Nodup)
    (hr : r ∈ rules) (p : Rule → Bool) :
    (rules.countP fun r' => r'.id == r.id && p r') = (p r).toNat := by
  -- The rule splits the list, and on neither side of it is there another rule with its id.
  have hother : ∀ l : List Rule, r.id ∉ l.map Rule.id →
      (l.countP fun r' => r'.id == r.id && p r') = 0 := by
    intro l hid
    refine List.countP_eq_zero.mpr fun r' hr' hboth => hid ?_
    have heq : r'.id = r.id := by simpa using (Bool.and_eq_true_iff.mp hboth).1
    exact heq ▸ List.mem_map_of_mem hr'
  obtain ⟨before, after, rfl⟩ := List.append_of_mem hr
  rw [List.map_append, List.map_cons, List.nodup_append] at hnodup
  obtain ⟨-, hafter, hdisjoint⟩ := hnodup
  have hbefore : r.id ∉ before.map Rule.id :=
    fun hid => hdisjoint _ hid _ List.mem_cons_self rfl
  rw [List.countP_append, List.countP_cons, hother before hbefore,
    hother after (List.nodup_cons.mp hafter).1]
  cases p r <;> simp

namespace Validator

/-- Whether a rule finds something on a symbol. -/
def finds (ctx : RuleContext) (r : Rule) (s : Symbol) : Bool :=
  r.appliesTo s.kind && (r.check ctx s).finding?.isSome

/-- Whether a rule goes wrong on a symbol. -/
def faultsOn (ctx : RuleContext) (r : Rule) (s : Symbol) : Bool :=
  r.appliesTo s.kind && (r.check ctx s).isFault

/-- **The violations of one rule** in a report are as many as the eligible symbols on which it finds
something. -/
theorem countP_violations_of_rule (v : Validator) (t : SymbolTable) {r : Rule}
    (hnodup : (v.activeRules.map Rule.id).Nodup) (hr : r ∈ v.activeRules) :
    ((v.validate t).violations.countP fun x => x.rule == r.id)
      = (v.eligibleSymbols t).countP (finds (v.context t) r) := by
  -- A rule makes one violation on a symbol at most.
  have hlength : ∀ s, (violationsOf (v.context t) r s).length
      = (finds (v.context t) r s).toNat := by
    intro s
    rw [violationsOf, checkRule, finds]
    cases r.appliesTo s.kind with
    | false => rfl
    | true => cases hfinding : (r.check (v.context t) s).finding? <;> simp [hfinding]
  calc ((v.validate t).violations.countP fun x => x.rule == r.id)
      = ((v.eligibleSymbols t).flatMap (violationsOf (v.context t) r)).length := by
        rw [List.countP_eq_length_filter, (v.perm_violations_of_rule t hnodup hr).length_eq]
    _ = ((v.eligibleSymbols t).map fun s => (finds (v.context t) r s).toNat).sum := by
        rw [List.length_flatMap]
        exact congrArg List.sum (List.map_congr_left fun s _ => hlength s)
    _ = (v.eligibleSymbols t).countP (finds (v.context t) r) := sum_map_toNat _ _

/-- **The faults of one rule** in a pass are as many as the eligible symbols on which it goes wrong. A
report does not say which rule went wrong, so this is counted in the applications. -/
theorem countP_faults_of_rule (v : Validator) (t : SymbolTable) {r : Rule}
    (hnodup : (v.activeRules.map Rule.id).Nodup) (hr : r ∈ v.activeRules) :
    ((v.applications t).countP fun p => p.2.id == r.id && (v.verdict t p).isFault)
      = (v.eligibleSymbols t).countP (faultsOn (v.context t) r) := by
  -- On each symbol, only the rule itself counts.
  have hsymbol : ∀ s : Symbol,
      (v.activeRules.countP fun r' =>
        (r'.id == r.id && (v.verdict t (s, r')).isFault) && r'.appliesTo s.kind)
      = (faultsOn (v.context t) r s).toNat := by
    intro s
    have hcount := countP_of_nodup_ids hnodup hr fun r' => faultsOn (v.context t) r' s
    rw [← hcount]
    refine List.countP_congr fun r' _ => ?_
    rw [faultsOn, Bool.and_assoc, Bool.and_comm (r'.appliesTo s.kind)]
    rfl
  -- The pairs of symbols and rules are counted symbol by symbol.
  rw [applications, List.countP_filter, List.product, List.countP_flatMap, ← sum_map_toNat]
  refine congrArg List.sum (List.map_congr_left fun s _ => ?_)
  rw [Function.comp_apply, List.countP_map]
  exact hsymbol s

/-- The faults of all rules together are those of the report. An actor counts for its own rule and a
report for all of them, so the sum is taken in the other order. -/
theorem sum_faults (v : Validator) (t : SymbolTable) :
    (v.activeRules.map fun r => (v.eligibleSymbols t).countP (faultsOn (v.context t) r)).sum
      = (v.validate t).ruleFaults := by
  calc (v.activeRules.map fun r => (v.eligibleSymbols t).countP (faultsOn (v.context t) r)).sum
      = ((v.eligibleSymbols t).map fun s =>
          v.activeRules.countP fun r => faultsOn (v.context t) r s).sum :=
        sum_countP_comm (fun s r => faultsOn (v.context t) r s) _ _
    _ = ((v.eligibleSymbols t).map fun s =>
          (checkSymbol (v.context t) v.activeRules s).ruleFaults).sum := by
        refine congrArg List.sum (List.map_congr_left fun s _ => ?_)
        rw [ruleFaults_checkSymbol]
        refine List.countP_congr fun r _ => ?_
        rw [faultsOn, Bool.and_comm]
    _ = (v.validate t).ruleFaults :=
        (count_checkTypes (f := Report.ruleFaults) rfl (fun _ _ => rfl) rfl v (v.context t)).symm

end Validator

namespace Stress

/-! ### What actors count -/

/-- **What a rule counts in one sweep:** all symbols, those on which it finds something, and those on
which it goes wrong. -/
theorem sweep_eq (ctx : RuleContext) (symbols : List Symbol) (rule : Rule) :
    sweep ctx symbols rule
      = ⟨symbols.length, symbols.countP (Validator.finds ctx rule),
          symbols.countP (Validator.faultsOn ctx rule)⟩ := by
  -- A symbol that the rule is not for counts as looked at all the same.
  have htally : ∀ s, tally ctx rule s
      = ⟨1, (Validator.finds ctx rule s).toNat, (Validator.faultsOn ctx rule s).toNat⟩ := by
    intro s
    rw [tally, Validator.finds, Validator.faultsOn]
    cases rule.appliesTo s.kind <;> rfl
  -- A sweep that has counted something goes on from there.
  have hfold : ∀ (symbols : List Symbol) (counted : Tally),
      symbols.foldl (fun total s => total.add (tally ctx rule s)) counted
        = counted.add ⟨symbols.length, symbols.countP (Validator.finds ctx rule),
            symbols.countP (Validator.faultsOn ctx rule)⟩ := by
    intro symbols
    induction symbols with
    | nil => exact fun _ => rfl
    | cons s symbols ih =>
      intro counted
      rw [List.foldl_cons, ih, htally, List.length_cons, List.countP_cons, List.countP_cons]
      cases Validator.finds ctx rule s <;> cases Validator.faultsOn ctx rule s <;>
        simp [Tally.add] <;> omega
  rw [sweep, hfold]
  simp [Tally.add]

section Actors

variable {plan : Plan} {timing : Timing} {ctx : RuleContext} {symbols : List Symbol}
  {rules : List Rule}

/-- All actors of a run, batch after batch. -/
def allActors (plan : Plan) (timing : Timing) (ctx : RuleContext) (symbols : List Symbol)
    (rules : List Rule) : List Actor :=
  (List.range plan.batches).flatMap (runBatch plan timing ctx symbols rules)

/-- **What an actor counts** is what its rule counts in a sweep, times the number of sweeps. -/
theorem runActor_eq (batch actor : Nat) (rule : Rule) :
    runActor plan timing ctx symbols batch actor rule
      = ⟨batch, actor, rule.id, plan.iterations * symbols.length,
          plan.iterations * symbols.countP (Validator.finds ctx rule),
          plan.iterations * symbols.countP (Validator.faultsOn ctx rule),
          timing.actor batch actor⟩ := by
  rw [runActor, Tally.repeat_add, sweep_eq]
  rfl

theorem runBatch_eq (batch : Nat) :
    runBatch plan timing ctx symbols rules batch
      = rules.zipIdx.map fun p => runActor plan timing ctx symbols batch p.2 p.1 := rfl

/-- The numbers of every actor, by its rule. The batch and the number of the actor make no
difference. -/
theorem exists_rule_of_mem_allActors {a : Actor}
    (h : a ∈ allActors plan timing ctx symbols rules) :
    ∃ r ∈ rules, a.rule = r.id ∧ a.operations = plan.iterations * symbols.length ∧
      a.findings = plan.iterations * symbols.countP (Validator.finds ctx r) ∧
      a.faults = plan.iterations * symbols.countP (Validator.faultsOn ctx r) := by
  obtain ⟨batch, -, hbatch⟩ := List.mem_flatMap.mp h
  rw [runBatch_eq] at hbatch
  obtain ⟨p, hp, rfl⟩ := List.mem_map.mp hbatch
  refine ⟨p.1, List.fst_mem_of_mem_zipIdx hp, ?_⟩
  rw [runActor_eq]
  exact ⟨rfl, rfl, rfl, rfl⟩

theorem map_allActors {α : Type} (f : Actor → α) :
    (allActors plan timing ctx symbols rules).map f
      = (List.range plan.batches).flatMap fun batch =>
          rules.zipIdx.map fun p => f (runActor plan timing ctx symbols batch p.2 p.1) := by
  rw [allActors, List.map_flatMap]
  refine List.flatMap_congr fun batch _ => ?_
  rw [runBatch_eq, List.map_map]
  rfl

/-- A number that depends only on the rule of an actor adds up over one batch, and each batch is like
the others. -/
theorem sum_allActors {f : Actor → Nat} {g : Rule → Nat}
    (h : ∀ batch actor r, f (runActor plan timing ctx symbols batch actor r) = g r) :
    ((allActors plan timing ctx symbols rules).map f).sum = plan.batches * (rules.map g).sum := by
  -- The number of an actor does not count, so it can be left out.
  have hbatch : ∀ batch,
      (rules.zipIdx.map fun p => f (runActor plan timing ctx symbols batch p.2 p.1)) = rules.map g := by
    intro batch
    conv_rhs => rw [← List.zipIdx_map_fst 0 rules, List.map_map]
    exact List.map_congr_left fun p _ => h batch p.2 p.1
  rw [map_allActors]
  simp only [hbatch]
  induction plan.batches with
  | zero => simp
  | succ n ih =>
    rw [List.range_succ, List.flatMap_append, List.sum_append, ih, List.flatMap_singleton,
      Nat.succ_mul]

/-- There is an actor for each rule in each batch. -/
theorem length_allActors :
    (allActors plan timing ctx symbols rules).length = plan.batches * rules.length := by
  have hsum : ((allActors plan timing ctx symbols rules).map fun _ => 1).sum
      = plan.batches * (rules.map fun _ => 1).sum := sum_allActors fun _ _ _ => rfl
  rw [List.map_const', List.map_const', List.sum_replicate_nat, List.sum_replicate_nat, Nat.mul_one,
    Nat.mul_one] at hsum
  exact hsum

theorem foldl_add_eq_sum (f : Actor → Nat) (actors : List Actor) :
    actors.foldl (fun n a => n + f a) 0 = (actors.map f).sum := by
  rw [List.sum_eq_foldl, List.foldl_map]

end Actors

/-! ### Results -/

/-- **What it means that a result agrees** with a pass over the same table. -/
structure Agrees (v : Validator) (plan : Plan) (t : SymbolTable) (result : Result) : Prop where
  /-- The actors stand batch after batch, and in each batch in the order of the rules. -/
  order : (result.actors.map fun a => (a.batch, a.actor, a.rule))
    = (List.range plan.batches).flatMap fun batch =>
        v.activeRules.zipIdx.map fun p => (batch, p.2, p.1.id)
  length : result.actors.length = plan.batches * v.activeRules.length
  operations : ∀ a ∈ result.actors,
    a.operations = plan.iterations * (v.eligibleSymbols t).length
  /-- An actor finds in each sweep as much as its rule in a pass, -/
  findings : ∀ a ∈ result.actors,
    a.findings = plan.iterations * (v.validate t).violations.countP fun x => x.rule == a.rule
  /-- and goes wrong as often. -/
  faults : ∀ a ∈ result.actors,
    a.faults = plan.iterations *
      (v.applications t).countP fun p => p.2.id == a.rule && (v.verdict t p).isFault
  totalOperations : result.totalOperations
    = plan.batches * v.activeRules.length * plan.iterations * (v.eligibleSymbols t).length
  ruleFaults : result.ruleFaults = plan.batches * plan.iterations * (v.validate t).ruleFaults

/-- Results of runs with nothing to do. -/
structure IsIdle (result : Result) : Prop where
  totalOperations : result.totalOperations = 0
  actors : result.actors = []
  bottleneck : result.bottleneck = false
  interference : result.interference = false

/-- Whether there is something to do in a run. -/
structure HasWork (v : Validator) (plan : Plan) (t : SymbolTable) : Prop where
  rules : 0 < v.activeRules.length
  symbols : 0 < (v.eligibleSymbols t).length
  iterations : 0 < plan.iterations
  batches : 0 < plan.batches

section Results

variable {v : Validator} {plan : Plan} {timing : Timing} {t : SymbolTable}

/-- The test that a run makes at its start. It stops at once if there are no rules, no symbols, no
sweeps or no batches. -/
theorem hasWork_iff : HasWork v plan t ↔
    (v.activeRules.isEmpty || (v.eligibleSymbols t).isEmpty || plan.iterations == 0 ||
      plan.batches == 0) = false := by
  simp only [Bool.or_eq_false_iff, List.isEmpty_eq_false_iff, beq_eq_false_iff_ne,
    ← List.length_pos_iff, ← Nat.pos_iff_ne_zero]
  refine ⟨?_, ?_⟩
  · rintro ⟨hrules, hsymbols, hiterations, hbatches⟩
    exact ⟨⟨⟨hrules, hsymbols⟩, hiterations⟩, hbatches⟩
  · rintro ⟨⟨⟨hrules, hsymbols⟩, hiterations⟩, hbatches⟩
    exact ⟨hrules, hsymbols, hiterations, hbatches⟩

/-- A run with something to do sums up its actors, and one with nothing to do has a result at once,
with no actor and no flag. -/
theorem run_of_hasWork (h : HasWork v plan t) :
    run v plan timing t
      = summarize plan timing.wallClock v.activeRules.length (v.eligibleSymbols t).length
          (allActors plan timing (v.context t) (v.eligibleSymbols t) v.activeRules) := by
  rw [run, hasWork_iff.mp h]
  rfl

theorem run_of_not_hasWork (h : ¬ HasWork v plan t) :
    run v plan timing t
      = { rules := v.activeRules.length, symbols := (v.eligibleSymbols t).length } := by
  rw [hasWork_iff, Bool.not_eq_false] at h
  rw [run, h]
  rfl

theorem isIdle_run (h : ¬ HasWork v plan t) : IsIdle (run v plan timing t) := by
  rw [run_of_not_hasWork h]
  exact ⟨rfl, rfl, rfl, rfl⟩

/-- **The result of a run agrees with a pass.** The numbers of each actor come from its rule, and the
totals from adding them up. -/
theorem agrees_run (hnodup : (v.activeRules.map Rule.id).Nodup) (h : HasWork v plan t) :
    Agrees v plan t (run v plan timing t) := by
  rw [run_of_hasWork h]
  constructor
  case order =>
    refine (map_allActors _).trans ?_
    simp only [runActor_eq]
  case length => exact length_allActors
  case operations =>
    intro a ha
    obtain ⟨r, -, -, hoperations, -, -⟩ := exists_rule_of_mem_allActors ha
    exact hoperations
  case findings =>
    intro a ha
    obtain ⟨r, hr, hrule, -, hfindings, -⟩ := exists_rule_of_mem_allActors ha
    rw [hfindings, hrule, v.countP_violations_of_rule t hnodup hr]
  case faults =>
    intro a ha
    obtain ⟨r, hr, hrule, -, -, hfaults⟩ := exists_rule_of_mem_allActors ha
    rw [hfaults, hrule, v.countP_faults_of_rule t hnodup hr]
  -- Each actor does the same number of operations.
  case totalOperations =>
    have hactor : ∀ batch actor r,
        (runActor plan timing (v.context t) (v.eligibleSymbols t) batch actor r).operations
          = plan.iterations * (v.eligibleSymbols t).length := by
      intro batch actor r
      rw [runActor_eq]
    refine (foldl_add_eq_sum Actor.operations _).trans ?_
    rw [sum_allActors hactor, List.map_const', List.sum_replicate_nat]
    simp only [Nat.mul_assoc]
  -- Here the actors differ, and adding up over the rules gives the faults of the pass.
  case ruleFaults =>
    have hactor : ∀ batch actor r,
        (runActor plan timing (v.context t) (v.eligibleSymbols t) batch actor r).faults
          = plan.iterations * (v.eligibleSymbols t).countP (Validator.faultsOn (v.context t) r) := by
      intro batch actor r
      rw [runActor_eq]
    refine (foldl_add_eq_sum Actor.faults _).trans ?_
    rw [sum_allActors hactor, List.sum_map_mul_left, v.sum_faults t, Nat.mul_assoc]

end Results

/-! ### Schedules -/

/-- What the tasks of a run over a table share. -/
def Job.ofTable (v : Validator) (plan : Plan) (timing : Timing) (t : SymbolTable) : Job :=
  ⟨plan, timing, v.context t, v.eligibleSymbols t, v.activeRules⟩

/-- **The results that a run can have,** under any schedule of its tasks. -/
inductive Returns (v : Validator) (plan : Plan) (timing : Timing) (t : SymbolTable) : Result → Prop
  | idle (h : ¬ HasWork v plan t) : Returns v plan timing t
      { rules := v.activeRules.length, symbols := (v.eligibleSymbols t).length }
  | done {s : State} (h : HasWork v plan t) (hrun : (Job.ofTable v plan timing t).Reachable s)
      (hend : s.batch = plan.batches) : Returns v plan timing t
        (summarize plan timing.wallClock v.activeRules.length (v.eligibleSymbols t).length s.actors)

/-- **There is one result, whatever the schedule.** Each task counts by itself, and what the tasks
leave behind is collected in the order of the rules when a batch ends. -/
theorem returns_iff {v : Validator} {plan : Plan} {timing : Timing} {t : SymbolTable}
    {result : Result} : Returns v plan timing t result ↔ result = run v plan timing t := by
  refine ⟨?_, ?_⟩
  · -- What was collected by the end is what the batches leave behind one after another.
    rintro (h | ⟨h, hrun, hend⟩)
    · exact (run_of_not_hasWork h).symm
    · rw [run_of_hasWork h, (Job.sound_of_reachable hrun).actors, hend]
      rfl
  · -- Some schedule comes to the end, and by the first part it has this result.
    rintro rfl
    by_cases h : HasWork v plan t
    · have hinitial : (Job.ofTable v plan timing t).Reachable (Job.ofTable v plan timing t).initial :=
        .refl
      obtain ⟨s, hrun, hend⟩ := Job.exists_run hinitial
      have hreturns := Returns.done h hrun hend
      rw [(Job.sound_of_reachable hrun).actors, hend] at hreturns
      rw [run_of_hasWork h]
      exact hreturns
    · rw [run_of_not_hasWork h]
      exact .idle h

/-- **Stress runs agree with passes.** Whatever the schedule, a run over a table never gets stuck and
comes to its end, and then its result agrees with a pass over the table, if no two active rules have
the same id. With nothing to do, there is no actor and nothing is out of bounds. -/
theorem stress_agrees_with_pass (v : Validator) (plan : Plan) (timing : Timing) (t : SymbolTable)
    (hnodup : (v.activeRules.map Rule.id).Nodup) :
    (WellFounded fun s' s => (Job.ofTable v plan timing t).Step s s') ∧
      (∀ s, (Job.ofTable v plan timing t).Reachable s →
        s.batch = plan.batches ∨ ∃ s', (Job.ofTable v plan timing t).Step s s') ∧
      (∃ result, Returns v plan timing t result) ∧
      ∀ result, Returns v plan timing t result →
        result = run v plan timing t ∧
          (HasWork v plan t → Agrees v plan t result) ∧ (¬ HasWork v plan t → IsIdle result) := by
  refine ⟨Job.wellFounded_step _, ?_, ⟨_, returns_iff.mpr rfl⟩, ?_⟩
  · intro s hreachable
    have hsound := Job.sound_of_reachable hreachable
    rcases hsound.batch.lt_or_eq with hbatch | hbatch
    · exact .inr (hsound.exists_step hbatch)
    · exact .inl hbatch
  -- Of the results that there can be there is one, so it is enough to look at that.
  · intro result hreturns
    obtain rfl := returns_iff.mp hreturns
    exact ⟨rfl, agrees_run hnodup, isIdle_run⟩

/-! Two batches of three sweeps with a rule that breaks down and a rule that finds something. -/

/-- Two batches of three sweeps each. -/
def shortPlan : Plan where
  batches := 2
  iterations := 3
  yieldEvery := 2

/-- A clock that stands still. -/
def noTime : Timing where
  wallClock := {}
  actor _ _ := {}

/-- There is something to do: two rules and two symbols. -/
theorem hasWork_shortPlan : HasWork touchy shortPlan wordyTable := by
  constructor <;> decide +kernel

/-- The rule that finds something finds it in every sweep, and the one that breaks down does so in
every sweep on one symbol. -/
theorem stress_agrees_with_pass_shortPlan :
    (touchy.activeRules.map Rule.id).Nodup ∧
      (run touchy shortPlan noTime wordyTable).totalOperations = 24 ∧
      (run touchy shortPlan noTime wordyTable).ruleFaults = 6 ∧
      ∀ a ∈ (run touchy shortPlan noTime wordyTable).actors,
        a.rule = "wordy" → a.operations = 6 ∧ a.findings = 3 ∧ a.faults = 0 := by
  have hnodup : (touchy.activeRules.map Rule.id).Nodup := by decide +kernel
  have hall := (stress_agrees_with_pass touchy shortPlan noTime wordyTable hnodup).2.2.2
  obtain ⟨-, hagrees, -⟩ := hall _ (returns_iff.mpr rfl)
  have hagrees := hagrees hasWork_shortPlan
  have hsymbols : (touchy.eligibleSymbols wordyTable).length = 2 := by decide +kernel
  refine ⟨hnodup, ?_, ?_, ?_⟩
  · rw [hagrees.totalOperations, hsymbols]
    decide +kernel
  · rw [hagrees.ruleFaults]
    decide +kernel
  · intro a ha hrule
    rw [hagrees.operations a ha, hagrees.findings a ha, hagrees.faults a ha, hrule, hsymbols]
    decide +kernel

end Stress

end CilLint
