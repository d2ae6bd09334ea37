import CilLint.Bytecode.Score
import CilLint.Usage.Dead

/-!
# Rules

A rule looks at one symbol at a time, with the whole table at hand, and comes to a verdict: nothing to
say, a finding, or no answer because the rule itself went wrong. A rule that goes wrong says nothing
about other symbols and other rules.
-/

namespace CilLint

/-- What a rule makes of a symbol. -/
inductive Verdict where
  | clean
  | found (message : String)
  /-- The rule gave up. -/
  | failed (reason : String)
  /-- The rule broke down, perhaps without saying why. -/
  | crashed (reason : Option String)
  deriving DecidableEq, Repr

namespace Verdict

/-- The verdict of a rule that never goes wrong. -/
def ofFinding : Option String → Verdict
  | none => .clean
  | some message => .found message

/-- The finding, if there is one. -/
def finding? : Verdict → Option String
  | .found message => some message
  | _ => none

/-- Whether the rule went wrong. -/
def isFault : Verdict → Bool
  | .failed _ | .crashed _ => true
  | _ => false

end Verdict

/-- What rules can look at besides the symbol. -/
structure RuleContext where
  table : SymbolTable
  references : ReferenceIndex
  weights : Weights Float

/-- The context of a table. -/
def RuleContext.ofTable (weights : Weights Float) (table : SymbolTable) : RuleContext :=
  ⟨table, .ofTable table, weights⟩

/-- A check that can be registered. -/
structure Rule where
  id : String
  description : String := ""
  /-- The kinds of symbols that the rule looks at. -/
  kinds : List SymbolKind := SymbolKind.all
  check : RuleContext → Symbol → Verdict

namespace Rule

/-- Whether a rule looks at symbols of a kind. -/
def appliesTo (r : Rule) (k : SymbolKind) : Bool := r.kinds.contains k

/-- The kinds of symbols that a rule looks at, in their order. -/
def kindNames (r : Rule) : List String := (SymbolKind.all.filter r.appliesTo).map SymbolKind.name

/-- A one-line description of a rule. -/
def describe (r : Rule) : String := "Rule \x7b id: " ++ Text.quote r.id ++ " \x7d"

/-- The text for a rule that went wrong on a symbol. -/
def faultText (r : Rule) (s : Symbol) (verb reason : String) : String :=
  "rule " ++ r.id ++ " " ++ verb ++ " on " ++ s.typeName ++ "." ++ s.name ++ ": " ++ reason

/-- The text of a verdict that is a fault. -/
def fault? (r : Rule) (s : Symbol) : Verdict → Option String
  | .failed reason => some (r.faultText s "failed" reason)
  | .crashed reason => some (r.faultText s "panicked" (reason.getD "unknown panic"))
  | _ => none

end Rule

/-- The member behind a method whose shape its author decided: not an accessor or operator, and made
neither by the compiler nor by the runtime. -/
def Symbol.authoredMethod? (s : Symbol) : Option Member :=
  match s.member? with
  | none => none
  | some m =>
    let info := s.declaringType.info
    if s.kind == .method && !m.flags.hasSpecialName && !isGeneratedMember info m &&
        !isSynthesized info m then
      some m
    else none

end CilLint
