import Std.Data.TreeMap
import CilLint.Violation

/-!
# Reports

What a pass found, and how much it looked at. Reports of parts are merged into the report of the
whole.
-/

namespace CilLint

/-- The result of a pass. -/
structure Report where
  violations : List Violation := []
  modulesScanned : Nat := 0
  symbolsChecked : Nat := 0
  /-- The number of symbols with an ignore marker. -/
  ignored : Nat := 0
  skippedTypes : Nat := 0
  skippedMembers : Nat := 0
  /-- How often a rule failed. -/
  ruleFaults : Nat := 0
  /-- The texts of all skips and failures. -/
  faults : List String := []
  deriving Repr

namespace Report

/-- Two reports in one. -/
def merge (a b : Report) : Report where
  violations := a.violations ++ b.violations
  modulesScanned := a.modulesScanned + b.modulesScanned
  symbolsChecked := a.symbolsChecked + b.symbolsChecked
  ignored := a.ignored + b.ignored
  skippedTypes := a.skippedTypes + b.skippedTypes
  skippedMembers := a.skippedMembers + b.skippedMembers
  ruleFaults := a.ruleFaults + b.ruleFaults
  faults := a.faults ++ b.faults

/-- Many reports in one. -/
def mergeAll : List Report → Report
  | [] => {}
  | r :: rs => r.merge (mergeAll rs)

/-- Violations in the order of reports; those that it does not tell apart stay in their order. -/
def sortViolations (vs : List Violation) : List Violation :=
  vs.mergeSort fun a b => (a.order b).isLE

/-- A report with its violations in order. -/
def sort (r : Report) : Report := { r with violations := sortViolations r.violations }

/-- Whether there is any violation. -/
def failed (r : Report) : Bool := !r.violations.isEmpty

/-- The violations of one category. -/
def ofCategory (r : Report) (c : Category) : List Violation :=
  r.violations.filter fun v => v.category == c

/-- The categories that occur, each with its violations. -/
def groups (r : Report) : List (Category × List Violation) :=
  (Category.all.map fun c => (c, r.ofCategory c)).filter fun (_, vs) => !vs.isEmpty

/-- Counts one more violation of a category. -/
def countCategory (counts : Std.TreeMap Category Nat) (c : Category) : Std.TreeMap Category Nat :=
  counts.insert c (counts.getD c 0 + 1)

/-- The categories that occur, each with the number of its violations, in the order of categories. -/
def counts (r : Report) : List (Category × Nat) :=
  (r.violations.foldl (fun counts v => countCategory counts v.category) ∅).toList

/-- The violations on one symbol. -/
def violationsFor (r : Report) (declaringType member : String) : List Violation :=
  r.violations.filter fun v => v.declaringType == declaringType && v.member == member

end Report

end CilLint
