import CilLint.Decimal.Format
import CilLint.Render.Json
import CilLint.Render.Style

/-!
# Results for people

Reports and results of stress runs as text for a terminal. Violations stand in groups, one for each
category that occurs, and within a group in the order of the report.
-/

namespace CilLint.Render

/-- The style of the heading of a category. -/
def categoryStyle : Category → Style
  | .prematureCelebration => .boldRed
  | .incompleteImplementation => .red
  | .unusedCode => .yellow
  | .debuggingCode => .blue
  | .other => .normal

/-- The head of all output. -/
def header (colored : Bool) (path : String) : String :=
  "\n  " ++ paint colored .boldCyan "storycheck" ++ " v" ++ version ++ "\n\n  " ++
    paint colored .dimmed "Scanning: " ++ path ++ "\n\n"

/-- The verdict in front of the summary. -/
def verdictMark (colored passed : Bool) : String :=
  if passed then paint colored .green "✓ PASS" else paint colored .red "✗ FAIL"

/-- The verdict at the end. -/
def verdictWord (colored passed : Bool) : String :=
  if passed then paint colored .green "PASSED" else paint colored .red "FAILED"

/-- What was looked at and what came of it, in numbers. -/
def summary (colored : Bool) (elapsed : Duration) (r : Report) : String :=
  let ignored :=
    if r.ignored = 0 then ""
    else "  " ++ paint colored .dimmed ("(" ++ toString r.ignored ++ " ignored)")
  let skipped :=
    if r.skippedTypes + r.skippedMembers = 0 then ""
    else "  " ++ paint colored .yellow ("(" ++ toString r.skippedTypes ++ " types, " ++
      toString r.skippedMembers ++ " members skipped)")
  toString r.violations.length ++ " violations in " ++ toString r.symbolsChecked ++ " symbols (" ++
    toString r.modulesScanned ++ " modules, " ++ toString elapsed.wholeMilliseconds ++ " ms)" ++
    ignored ++ skipped

/-- The lines of a violation. -/
def violationLines (colored : Bool) (v : Violation) : String :=
  let place :=
    if v.location.isUnknown then "" else "  " ++ paint colored .dimmed v.location.file
  let score :=
    match v.incompleteness with
    | none => ""
    | some x => "  " ++ paint colored .dimmed ("[" ++ Decimal.fixed 2 x ++ "]")
  "    " ++ paint colored .dimmed v.rule 24 ++ paint colored .blue v.symbolName ++ place ++ score ++
    "\n            " ++ v.message ++ "\n"

/-- The lines of a group of violations. -/
def groupLines (colored : Bool) (group : Category × List Violation) : String :=
  "  " ++ paint colored (categoryStyle group.1) group.1.name ++ " (" ++
    toString group.2.length ++ "):\n\n" ++ String.join (group.2.map (violationLines colored)) ++ "\n"

/-- The lines of the faults. -/
def faultLines (colored : Bool) (faults : List String) : String :=
  if faults.isEmpty then ""
  else "  " ++ paint colored .yellow "Faults" ++ " (" ++ toString faults.length ++ "):\n" ++
    String.join (faults.map fun f => "    " ++ paint colored .dimmed f ++ "\n") ++ "\n"

/-- **A report as text for a terminal.** -/
def reportPretty (colored : Bool) (path : String) (elapsed : Duration) (r : Report) : String :=
  header colored path ++ "  " ++ verdictMark colored (!r.failed) ++ "  " ++
    summary colored elapsed r ++ "\n\n" ++ String.join (r.groups.map (groupLines colored)) ++
    faultLines colored r.faults ++ "  " ++ verdictWord colored (!r.failed) ++ "\n\n"

/-- A line with a label and a value. -/
def labelled (colored : Bool) (label value : String) : String :=
  "  " ++ paint colored .dimmed label 22 ++ value ++ "\n"

/-- **The result of a stress run as text for a terminal.** -/
def stressPretty (colored : Bool) (path : String) (r : Stress.Result) : String :=
  let slowest :=
    match r.slowest? with
    | none => ""
    | some a => labelled colored "Slowest actor:"
        (a.rule ++ " (" ++ Decimal.fixed 1 a.elapsed.milliseconds ++ " ms)")
  let faults :=
    if r.ruleFaults = 0 then "" else labelled colored "Rule faults:" (toString r.ruleFaults)
  let line (condition : Bool) (style : Style) (s : String) : String :=
    if condition then "  " ++ paint colored style s ++ "\n" else ""
  header colored path ++
    "  " ++ toString r.rules ++ " rules x " ++ toString r.batches ++ " batches over " ++
    toString r.symbols ++ " symbols\n" ++
    labelled colored "Operations:" (toString r.totalOperations) ++
    labelled colored "Wall clock:" (Decimal.fixed 1 r.wallClock.milliseconds ++ " ms") ++
    labelled colored "Throughput:" (Decimal.fixed 0 r.operationsPerSecond ++ " ops/s") ++
    labelled colored "Timing variation:" (Decimal.fixed 1 r.timingVariation ++ "%") ++
    slowest ++ faults ++ "\n" ++
    line r.bottleneck .red "✗ bottleneck: throughput below floor" ++
    line r.interference .red "✗ actor interference: timing variation above ceiling" ++
    line r.isHealthy .green "✓ HEALTHY" ++ "\n"

end CilLint.Render
