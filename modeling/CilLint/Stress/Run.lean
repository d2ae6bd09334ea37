import CilLint.Stress.Metrics
import CilLint.Validator

/-!
# Stress runs

A stress run applies every active rule to every eligible symbol over and over. In each batch there is
one actor for each rule, and an actor sweeps over the symbols as often as the plan says. Every pair of
an actor's rule and a symbol is an operation, also if the rule does not look at symbols of that kind.

How long actors take is measured from outside, so a run is given the times.
-/

namespace CilLint.Stress

/-- What a stress run should do, and what it should find out of bounds. -/
structure Plan where
  /-- Batches run one after another. -/
  batches : Nat := 2
  /-- Sweeps of each actor. -/
  iterations : Nat := 16
  /-- Sweeps after which an actor lets others run; zero for never. -/
  yieldEvery : Nat := 4
  /-- The least number of operations in a second. -/
  minThroughput : Float := 100.0
  /-- How far the actors' times may lie apart, in percent. -/
  maxTimingVariation : Float := 150.0
  workerThreads : Option Nat := none
  deriving Repr

/-- The times of a run. -/
structure Timing where
  wallClock : Duration
  /-- How long an actor takes in a batch. -/
  actor : Nat → Nat → Duration

/-- What an actor counts. -/
structure Tally where
  operations : Nat := 0
  findings : Nat := 0
  faults : Nat := 0
  deriving DecidableEq, Repr

/-- Two tallies together. -/
def Tally.add (a b : Tally) : Tally :=
  ⟨a.operations + b.operations, a.findings + b.findings, a.faults + b.faults⟩

/-- What a rule counts on one symbol. -/
def tally (ctx : RuleContext) (rule : Rule) (s : Symbol) : Tally :=
  if rule.appliesTo s.kind then
    let verdict := rule.check ctx s
    ⟨1, verdict.finding?.isSome.toNat, verdict.isFault.toNat⟩
  else ⟨1, 0, 0⟩

/-- What a rule counts in one sweep over symbols. -/
def sweep (ctx : RuleContext) (symbols : List Symbol) (rule : Rule) : Tally :=
  symbols.foldl (fun total s => total.add (tally ctx rule s)) {}

/-- What an actor does in a batch. -/
def runActor (plan : Plan) (timing : Timing) (ctx : RuleContext) (symbols : List Symbol)
    (batch actor : Nat) (rule : Rule) : Actor :=
  let once := sweep ctx symbols rule
  let total := Nat.repeat once.add plan.iterations {}
  ⟨batch, actor, rule.id, total.operations, total.findings, total.faults, timing.actor batch actor⟩

/-- What all actors do in a batch. -/
def runBatch (plan : Plan) (timing : Timing) (ctx : RuleContext) (symbols : List Symbol)
    (rules : List Rule) (batch : Nat) : List Actor :=
  rules.zipIdx.map fun (rule, actor) => runActor plan timing ctx symbols batch actor rule

/-- The result of a run whose actors are done. -/
def summarize (plan : Plan) (wallClock : Duration) (rules symbols : Nat) (actors : List Actor) :
    Result :=
  let total := actors.foldl (fun n a => n + a.operations) 0
  let perSecond := throughput total wallClock
  let variation := timingVariation (actors.map Actor.elapsed)
  { actors := actors
    batches := plan.batches
    rules := rules
    symbols := symbols
    totalOperations := total
    ruleFaults := actors.foldl (fun n a => n + a.faults) 0
    wallClock := wallClock
    operationsPerSecond := perSecond
    timingVariation := variation
    bottleneck := perSecond < plan.minThroughput
    interference := plan.maxTimingVariation < variation }

/-- **A stress run** over a table. A run with nothing to do has no actors and finds nothing. -/
def run (v : Validator) (plan : Plan) (timing : Timing) (t : SymbolTable) : Result :=
  let rules := v.activeRules
  let symbols := v.eligibleSymbols t
  if rules.isEmpty || symbols.isEmpty || plan.iterations == 0 || plan.batches == 0 then
    { rules := rules.length, symbols := symbols.length }
  else
    let ctx := v.context t
    summarize plan timing.wallClock rules.length symbols.length
      ((List.range plan.batches).flatMap (runBatch plan timing ctx symbols rules))

end CilLint.Stress
