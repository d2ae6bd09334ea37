import CilLint.Rule.Basic

/-!
# Rules on dead members

Members that nothing uses, by the references of the whole table.
-/

namespace CilLint.Rule

/-- Fields that are never loaded. -/
def unusedField : Rule where
  id := "unused-field"
  description := "non-public field is never read"
  kinds := [.field]
  check ctx s :=
    if ctx.references.isUnusedField s then
      .found (if s.key?.any ctx.references.isWritten then "Field is assigned but never read"
        else "Field is never read or written")
    else .clean

/-- Methods that no other body calls. -/
def unusedMethod : Rule where
  id := "unused-method"
  description := "non-public method is never called"
  kinds := [.method]
  check ctx s :=
    if ctx.references.isUnusedMethod s then .found "Method is never called" else .clean

/-- Properties whose getter is never called. -/
def unusedProperty : Rule where
  id := "unused-property"
  description := "non-public property is never read"
  kinds := [.property]
  check ctx s :=
    if ctx.references.isUnusedProperty s then .found "Property is never read" else .clean

end CilLint.Rule
