import CilLint.Report
import CilLint.Rule.Registry

/-!
# Passes

A pass applies every active rule to every eligible symbol. A symbol is eligible if its module is, if
the compiler did not make its type, and if it is not ignored. Modules that are not eligible still
count when it comes to who uses what.
-/

namespace CilLint

/-- How passes are done. -/
structure Validator where
  registry : Registry := .builtin
  /-- Whether a module with a given name is looked at. -/
  eligible : String → Bool := fun _ => true
  /-- The ids of rules that are left out. -/
  disabled : List String := []
  weights : Weights Float := .standard

namespace Validator

/-- The rules that take part in a pass. -/
def activeRules (v : Validator) : List Rule :=
  v.registry.rules.filter fun r => !v.disabled.contains r.id

/-- Whether the symbols of a type are looked at. -/
def eligibleType (v : Validator) (t : TypeEntry) : Bool :=
  !t.info.isCompilerGenerated && v.eligible t.module.name

/-- The symbols that a pass looks at. -/
def eligibleSymbols (v : Validator) (t : SymbolTable) : List Symbol :=
  ((t.types.filter v.eligibleType).flatMap TypeEntry.symbols).filter fun s => !s.isIgnored

/-- The context that rules get in a pass. -/
def context (v : Validator) (t : SymbolTable) : RuleContext := .ofTable v.weights t

/-- The violation that a finding on a symbol makes. -/
def violation (weights : Weights Float) (s : Symbol) (rule message : String) : Violation where
  rule := rule
  declaringType := s.typeName
  member := if s.entry.isSome then s.name else ""
  message := message
  category := .ofMessage message
  location := ⟨s.module.location.getD "", 0⟩
  incompleteness := s.body?.map fun body => bodyScore weights (some body)

/-- What one rule contributes to the report on a symbol. -/
def checkRule (ctx : RuleContext) (s : Symbol) (rule : Rule) : Report :=
  if rule.appliesTo s.kind then
    let verdict := rule.check ctx s
    { violations := (verdict.finding?.map (violation ctx.weights s rule.id)).toList
      ruleFaults := verdict.isFault.toNat
      faults := (rule.fault? s verdict).toList }
  else {}

/-- The report on one symbol. -/
def checkSymbol (ctx : RuleContext) (rules : List Rule) (s : Symbol) : Report :=
  { Report.mergeAll (rules.map (checkRule ctx s)) with symbolsChecked := 1 }

/-- The report on one type and its members. -/
def checkType (ctx : RuleContext) (rules : List Rule) (t : TypeEntry) : Report :=
  .mergeAll (t.symbols.map fun s => if s.isIgnored then { ignored := 1 } else checkSymbol ctx rules s)

/-- The report on all types, before it is completed and sorted. -/
def checkTypes (v : Validator) (ctx : RuleContext) : Report :=
  .mergeAll (ctx.table.types.map fun t =>
    if v.eligibleType t then checkType ctx v.activeRules t else {})

/-- **The report on a table.** -/
def validate (v : Validator) (t : SymbolTable) : Report :=
  let found := v.checkTypes (v.context t)
  Report.sort { found with
    modulesScanned := t.modules.countP fun m => v.eligible m.name
    skippedTypes := t.skippedTypes
    skippedMembers := t.skippedMembers
    faults := t.skips.map Skip.message ++ found.faults }

/-- The violations on one symbol, eligible or not. -/
def validateSymbol (v : Validator) (t : SymbolTable) (s : Symbol) : List Violation :=
  Report.sortViolations (checkSymbol (v.context t) v.activeRules s).violations

end Validator

end CilLint
