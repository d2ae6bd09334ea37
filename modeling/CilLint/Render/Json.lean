import CilLint.Document.JsonText
import CilLint.Report.Document
import CilLint.Stress.Metrics

/-!
# Results for machines

Reports and results of stress runs as JSON text.
-/

namespace CilLint.Render

open Document (natural)

/-- The version that all output shows. -/
def version : String := "0.1.0"

/-- The number of violations in a category. -/
def writeCount (count : Category × Nat) : Document :=
  .record [("category", .text count.1.name), ("violations", natural count.2)]

/-- The document of a report and its verdict. -/
def reportDocument (path : String) (elapsed : Duration) (r : Report) : Document :=
  .record ([
    ("version", .text version),
    ("path", .text path),
    ("passed", .bool !r.failed),
    ("elapsed_ms", natural elapsed.wholeMilliseconds),
    ("counts", .list (r.counts.map writeCount))] ++ r.writeFields)

/-- **A report as JSON text.** -/
def reportJson (path : String) (elapsed : Duration) (r : Report) : String :=
  Json.pretty (reportDocument path elapsed r)

/-- The document of an actor. -/
def writeActor (a : Stress.Actor) : Document :=
  .record [
    ("batch", natural a.batch),
    ("actor", natural a.actor),
    ("rule", .text a.rule),
    ("operations", natural a.operations),
    ("findings", natural a.findings),
    ("faults", natural a.faults),
    ("elapsed_ms", .real a.elapsed.milliseconds)]

/-- **The result of a stress run as JSON text.** -/
def stressJson (path : String) (r : Stress.Result) : String :=
  Json.pretty <| .record [
    ("version", .text version),
    ("path", .text path),
    ("healthy", .bool r.isHealthy),
    ("actors", .list (r.actors.map writeActor)),
    ("batches", natural r.batches),
    ("rules", natural r.rules),
    ("symbols", natural r.symbols),
    ("total_operations", natural r.totalOperations),
    ("rule_faults", natural r.ruleFaults),
    ("wall_clock_ms", .real r.wallClock.milliseconds),
    ("operations_per_second", .real r.operationsPerSecond),
    ("timing_variation_percent", .real r.timingVariation),
    ("bottleneck", .bool r.bottleneck),
    ("interference", .bool r.interference)]

end CilLint.Render
