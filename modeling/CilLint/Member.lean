import CilLint.Text.Search
import CilLint.Text.White
import CilLint.Token

/-!
# Members

What a type declares: constructors, methods, properties, fields and events, with the metadata that
the checks look at and the bytecode of those that have any. A `MemberKey` is the identity of a
member across modules: the full name of its type, its name and its parameter types. Overloads differ
only in the last part.
-/

namespace CilLint

/-- The identity of a member. Two tokens that resolve to one key name one member. -/
structure MemberKey where
  declaringType : String
  name : String
  parameters : List String := []
  deriving DecidableEq, Hashable, Repr, Inhabited

namespace MemberKey

/-- Keys are ordered by type, then name, then parameters. -/
instance : Ord MemberKey where
  compare a b :=
    (compare a.declaringType b.declaringType).then
      ((compare a.name b.name).then (compare a.parameters b.parameters))

/-- A key as `Type::name`, with the parameters in parentheses if there are any. -/
def display (k : MemberKey) : String :=
  let head := k.declaringType ++ "::" ++ k.name
  if k.parameters.isEmpty then head
  else head ++ "(" ++ String.intercalate ", " k.parameters ++ ")"

end MemberKey

/-- What a type can declare. -/
inductive MemberKind where
  | constructor | method | property | field | event
  deriving DecidableEq, Repr

namespace MemberKind

/-- The name of a kind in manifests. -/
def name : MemberKind → String
  | .constructor => "constructor"
  | .method => "method"
  | .property => "property"
  | .field => "field"
  | .event => "event"

/-- All kinds. -/
def all : List MemberKind := [.constructor, .method, .property, .field, .event]

/-- The kind with a given name. -/
def ofName? (s : String) : Option MemberKind := all.find? fun k => k.name == s

end MemberKind

/-- The metadata flags of a member. -/
structure MemberFlags where
  isPublic : Bool := false
  isStatic : Bool := false
  isAbstract : Bool := false
  isVirtual : Bool := false
  isOverride : Bool := false
  isExtern : Bool := false
  hasSpecialName : Bool := false
  isLiteral : Bool := false
  isCompilerGenerated : Bool := false
  deriving DecidableEq, Repr, Inhabited

/-- Takes a type or member out of every pass, and says why. -/
structure IgnoreMarker where
  justification : String
  /-- A justification is never blank. -/
  notBlank : Text.isBlank justification = false
  deriving DecidableEq, Repr

/-- The marker with a given justification, unless it is blank. -/
def IgnoreMarker.ofText? (s : String) : Option IgnoreMarker :=
  if h : Text.isBlank s = false then some ⟨s, h⟩ else none

/-- A member declared on a type. -/
structure Member where
  name : String
  kind : MemberKind
  token : Token := ⟨0⟩
  flags : MemberFlags := {}
  /-- The name of the return type; absent for void and for members that are no methods. -/
  returnType : Option String := none
  parameters : List String := []
  /-- The type names of the custom attributes. -/
  attributes : List String := []
  /-- The name of the accessor that reads a property, if it is not the usual one. -/
  getter : Option String := none
  ignore : Option IgnoreMarker := none
  /-- Why the member could not be loaded, if it could not. -/
  unresolved : Option String := none
  /-- The bytecode; absent for members without one. -/
  body : Option (List UInt8) := none
  deriving DecidableEq, Repr

namespace Member

/-- The key of a member of the type with full name `typeName`. -/
def key (typeName : String) (m : Member) : MemberKey := ⟨typeName, m.name, m.parameters⟩

/-- Whether the name of some attribute contains a fragment. -/
def hasAttribute (m : Member) (fragment : String) : Bool :=
  m.attributes.any fun a => Text.contains a fragment

/-- Whether a member returns a value. -/
def returnsValue (m : Member) : Bool :=
  match m.returnType with
  | none => false
  | some t => t != "void" && t != "System.Void"

/-- The name of the accessor that reads a property. -/
def getterName (m : Member) : String := m.getter.getD ("get_" ++ m.name)

end Member

end CilLint
