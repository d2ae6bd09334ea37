import CilLint.TypeDef

/-!
# Manifests

The description of a module: its name, where it came from, its types, and its references. A
reference gives the meaning of a token that stands for a member of any module.
-/

namespace CilLint

/-- A token of a module and the member it stands for. -/
structure Reference where
  token : Token
  declaringType : String
  name : String
  /-- The parameter types, which select one overload. -/
  parameters : List String := []
  deriving DecidableEq, Repr

/-- The member that a reference stands for. -/
def Reference.key (r : Reference) : MemberKey := ⟨r.declaringType, r.name, r.parameters⟩

/-- The reference from a token to a member. -/
def Reference.toKey (token : Token) (k : MemberKey) : Reference :=
  ⟨token, k.declaringType, k.name, k.parameters⟩

@[simp] theorem Reference.key_toKey (token : Token) (k : MemberKey) :
    (Reference.toKey token k).key = k := rfl

/-- The description of a module. -/
structure Manifest where
  name : String
  location : Option String := none
  types : List TypeDef := []
  references : List Reference := []

end CilLint
