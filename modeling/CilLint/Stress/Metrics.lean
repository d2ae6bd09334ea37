import CilLint.Duration

/-!
# Metrics of stress runs

What the actors of a stress run did and how long they took, and two numbers over all of them: how many
operations were done in a second, and how far the actors' times lie apart.
-/

namespace CilLint.Stress

/-- What one actor did in one batch. -/
structure Actor where
  batch : Nat
  actor : Nat
  rule : String
  operations : Nat
  findings : Nat
  faults : Nat
  elapsed : Duration
  deriving Repr

/-- The result of a stress run. -/
structure Result where
  actors : List Actor := []
  batches : Nat := 0
  rules : Nat := 0
  symbols : Nat := 0
  totalOperations : Nat := 0
  ruleFaults : Nat := 0
  wallClock : Duration := {}
  operationsPerSecond : Float := 0
  timingVariation : Float := 0
  /-- Whether there were too few operations in a second. -/
  bottleneck : Bool := false
  /-- Whether the actors' times lay too far apart. -/
  interference : Bool := false
  deriving Repr

namespace Result

/-- Whether nothing was out of bounds. -/
def isHealthy (r : Result) : Bool := !r.bottleneck && !r.interference

/-- The actor that took longest, the last one of several. -/
def slowest? (r : Result) : Option Actor :=
  r.actors.foldl (fun best a =>
    match best with
    | none => some a
    | some b => if b.elapsed.nanoseconds ≤ a.elapsed.nanoseconds then some a else some b) none

end Result

/-- Operations in a second. A run takes at least a nanosecond. -/
def throughput (operations : Nat) (wallClock : Duration) : Float :=
  if operations = 0 then 0.0
  else
    let seconds := wallClock.seconds
    Duration.toFloat operations / (if seconds < 1e-9 then 1e-9 else seconds)

/-- How far times lie apart, in percent of their average. -/
def timingVariation (times : List Duration) : Float :=
  match times.map Duration.seconds with
  | [] => 0.0
  | first :: rest =>
    let most := rest.foldl (fun a b => if a < b then b else a) first
    let least := rest.foldl (fun a b => if b < a then b else a) first
    let average := rest.foldl (· + ·) first / Duration.toFloat times.length
    if average ≤ 0.0 then 0.0 else (most - least) / average * 100.0

end CilLint.Stress
