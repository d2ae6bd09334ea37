/-!
# Skips

Types and members that a module names but could not load. They are left out of the table and counted,
because what was left out may use what is in the table.
-/

namespace CilLint

/-- Something that could not be loaded, and why. -/
inductive Skip where
  | type (fullName reason : String)
  | member (typeName name reason : String)
  deriving DecidableEq, Repr

namespace Skip

/-- Whether a type was left out, not a member. -/
def isType : Skip → Bool
  | .type _ _ => true
  | .member _ _ _ => false

/-- The text of a skip. -/
def message : Skip → String
  | .type name reason => "type " ++ name ++ " could not be loaded: " ++ reason
  | .member typeName name reason =>
    "member " ++ typeName ++ "::" ++ name ++ " could not be loaded: " ++ reason

end Skip

end CilLint
