import CilLint.Rule.Structure
import CilLint.Rule.Telltale
import CilLint.Rule.Unused

/-!
# Registries

A registry is a list of rules in which no id stands twice: the first rule with an id wins, and later
ones are turned away. A registry is a value, so whoever keeps one keeps the rules it had then.
-/

namespace CilLint

/-- **The built-in rules,** in the order in which they run. -/
def Rule.builtin : List Rule :=
  [.notImplemented, .defaultReturn, .constantReturn, .emptyBody, .incompleteType, .placeholderType,
    .hollowEnum, .debugOnly, .phantomProperty, .prematureCelebration, .unusedField, .unusedMethod,
    .unusedProperty]

/-- The rules that take part in passes. -/
structure Registry where
  rules : List Rule := []

namespace Registry

/-- The ids of the rules, in order. -/
def ids (r : Registry) : List String := r.rules.map Rule.id

/-- Whether a rule with an id is registered. -/
def contains (r : Registry) (id : String) : Bool := r.rules.any fun rule => rule.id == id

/-- Registers a rule, and says whether it was taken. -/
def register (r : Registry) (rule : Rule) : Bool × Registry :=
  if r.contains rule.id then (false, r) else (true, ⟨r.rules ++ [rule]⟩)

/-- Registers rules in order, and says how many were taken. -/
def registerAll (r : Registry) : List Rule → Nat × Registry
  | [] => (0, r)
  | rule :: rules =>
    let (taken, next) := r.register rule
    let (count, last) := next.registerAll rules
    (count + taken.toNat, last)

/-- The registry of some rules. -/
def ofRules (rules : List Rule) : Registry := (Registry.registerAll {} rules).2

/-- The registry of the built-in rules. -/
def builtin : Registry := ofRules Rule.builtin

/-- A registry without rules. -/
def reset (_ : Registry) : Registry := {}

end Registry

end CilLint
