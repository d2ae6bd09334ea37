import CilLint.Category

/-!
# Violations

What a rule found on a symbol. Reports order violations by type, member, rule and location.
-/

namespace CilLint

/-- A place in a file. -/
structure Location where
  file : String := ""
  line : Nat := 0
  deriving DecidableEq, Repr

/-- Whether a location says nothing. -/
def Location.isUnknown (l : Location) : Bool := l.file.isEmpty && l.line == 0

/-- What a rule found on a symbol. -/
structure Violation where
  rule : String
  declaringType : String
  /-- The name of the member; empty if the symbol is a type. -/
  member : String
  message : String
  category : Category
  location : Location := {}
  /-- The score of the body, if there is one. -/
  incompleteness : Option Float := none
  deriving Repr

namespace Violation

/-- The name of the symbol. -/
def symbolName (v : Violation) : String :=
  if v.member.isEmpty then v.declaringType else v.declaringType ++ "." ++ v.member

/-- The rule and the symbol in one text. -/
def key (v : Violation) : String := v.rule ++ "|" ++ v.declaringType ++ "|" ++ v.member

/-- The order of violations in reports. -/
def order (a b : Violation) : Ordering :=
  (compare a.declaringType b.declaringType).then
    ((compare a.member b.member).then
      ((compare a.rule b.rule).then
        ((compare a.location.file b.location.file).then
          (compare a.location.line b.location.line))))

end Violation

end CilLint
