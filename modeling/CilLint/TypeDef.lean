import CilLint.Member

/-!
# Types

A type definition is a tree: what a type declares, and the definitions nested in it. The full name of
a type is its namespace and name at the top of a tree, and below that the full name of the enclosing
type, a plus sign and its name.
-/

namespace CilLint

/-- The metadata flags of a type. -/
structure TypeFlags where
  isPublic : Bool := false
  isAbstract : Bool := false
  isInterface : Bool := false
  isEnum : Bool := false
  isSealed : Bool := false
  isCompilerGenerated : Bool := false
  deriving DecidableEq, Repr, Inhabited

/-- What one type declares, apart from nested types and members. -/
structure TypeInfo where
  name : String := ""
  nameSpace : String := ""
  flags : TypeFlags := {}
  /-- The type names of the custom attributes. -/
  attributes : List String := []
  ignore : Option IgnoreMarker := none
  /-- Why the type could not be loaded, if it could not. -/
  unresolved : Option String := none
  /-- The names of the values of an enum. -/
  enumValues : List String := []
  deriving DecidableEq, Repr

namespace TypeInfo

/-- The full name of a type inside the type with full name `outer`, or at the top. -/
def fullName (info : TypeInfo) : Option String → String
  | some outer => outer ++ "+" ++ info.name
  | none => if info.nameSpace.isEmpty then info.name else info.nameSpace ++ "." ++ info.name

/-- Whether the name of some attribute contains a fragment. -/
def hasAttribute (info : TypeInfo) (fragment : String) : Bool :=
  info.attributes.any fun a => Text.contains a fragment

/-- Whether a type is marked or named as one that the compiler made. -/
def isCompilerGenerated (info : TypeInfo) : Bool :=
  info.flags.isCompilerGenerated || Text.startsWith info.name "<" || Text.startsWith info.name "__"

end TypeInfo

/-- A type with its members and the types nested in it. -/
inductive TypeDef where
  | node (info : TypeInfo) (members : List Member) (nested : List TypeDef)

namespace TypeDef

/-- What a type declares, apart from nested types and members. -/
def info : TypeDef → TypeInfo
  | .node info _ _ => info

/-- The members of a type. -/
def members : TypeDef → List Member
  | .node _ members _ => members

/-- The types nested directly in a type. -/
def nested : TypeDef → List TypeDef
  | .node _ _ nested => nested

@[simp] theorem info_node (i : TypeInfo) (ms : List Member) (ts : List TypeDef) :
    (node i ms ts).info = i := rfl

@[simp] theorem members_node (i : TypeInfo) (ms : List Member) (ts : List TypeDef) :
    (node i ms ts).members = ms := rfl

@[simp] theorem nested_node (i : TypeInfo) (ms : List Member) (ts : List TypeDef) :
    (node i ms ts).nested = ts := rfl

mutual

/-- The number of types in a tree. -/
def size : TypeDef → Nat
  | .node _ _ nested => 1 + sizeAll nested

/-- The number of types in several trees. -/
def sizeAll : List TypeDef → Nat
  | [] => 0
  | t :: ts => t.size + sizeAll ts

end

theorem size_pos (t : TypeDef) : 0 < t.size := by
  cases t
  rw [size]
  omega

theorem sizeAll_nested_lt (t : TypeDef) : sizeAll t.nested < t.size := by
  cases t
  rw [nested_node, size]
  omega

theorem sizeAll_append (ts us : List TypeDef) : sizeAll (ts ++ us) = sizeAll ts + sizeAll us := by
  induction ts with
  | nil => rw [List.nil_append, sizeAll, Nat.zero_add]
  | cons t ts ih => rw [List.cons_append, sizeAll, sizeAll, ih, Nat.add_assoc]

end TypeDef

end CilLint
