import CilLint.Rule.Stub

/-!
# Rules on names and attributes

Members whose names or attributes give them away: helpers for debugging, properties that call
themselves unused, and methods marked as done that are not.
-/

namespace CilLint.Rule

/-- Methods for debugging and testing that are not marked as obsolete. -/
def debugOnly : Rule where
  id := "debug-only"
  description := "debug or test method without an Obsolete attribute"
  kinds := [.method]
  check _ s :=
    if s.authoredMethod?.any fun m => Naming.isDebug m.name && !m.hasAttribute "Obsolete" then
      .found "Debug/Test method without Obsolete attribute (should be temporary)"
    else .clean

/-- Properties whose names say that nobody uses them. -/
def phantomProperty : Rule where
  id := "phantom-property"
  description := "property name suggests it is unused"
  kinds := [.property]
  check _ s :=
    if s.member?.any fun m =>
        !isGeneratedMember s.declaringType.info m && Naming.isPhantom m.name then
      .found "Phantom property - name suggests it is unused"
    else .clean

/-- Attributes that mark a method as done. -/
def completionMarkers : List String := ["Complete", "Finished", "Done"]

/-- Methods that are marked as done and throw instead of doing something. -/
def prematureCelebration : Rule where
  id := "premature-celebration"
  description := "method marked complete but not implemented"
  kinds := [.method]
  check _ s :=
    if s.authoredMethod?.any fun m =>
        completionMarkers.any m.hasAttribute && throwsNotImplemented s m then
      .found "Premature celebration - marked as complete but throws NotImplementedException"
    else .clean

end CilLint.Rule
