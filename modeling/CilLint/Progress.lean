/-!
# Progress

A pass over many types reports how far it got: after every so many types, and after the last one.
-/

namespace CilLint

/-- How far a pass got. -/
structure Progress where
  done : Nat
  total : Nat
  deriving DecidableEq, Repr

namespace Progress

/-- One more type is done: the new count, and what is reported. An interval of zero counts as one. -/
def tick (interval total done : Nat) : Nat × Option Progress :=
  let now := done + 1
  (now, if now % max interval 1 = 0 ∨ now = total then some ⟨now, total⟩ else none)

/-- What is reported over the next `types` types. -/
def ticks (interval total : Nat) : Nat → Nat → List Progress
  | 0, _ => []
  | types + 1, done =>
    let (now, report) := tick interval total done
    report.toList ++ ticks interval total types now

/-- **What a pass over `total` types reports.** -/
def checkpoints (interval total : Nat) : List Progress := ticks interval total total 0

end Progress

end CilLint
