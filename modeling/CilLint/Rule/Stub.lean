import CilLint.Bytecode.Throws
import CilLint.Rule.Basic

/-!
# Rules on stubs

Bodies that stand in for an implementation: they throw, return a default or a literal, or do nothing.
-/

namespace CilLint.Rule

/-- The exception that stands in for an implementation. -/
def notImplementedException : String := "NotImplementedException"

/-- Whether the body of a member throws the exception that stands in for an implementation. -/
def throwsNotImplemented (s : Symbol) (m : Member) : Bool :=
  m.body.any (throwsException s.module notImplementedException)

/-- The member that may be a stub: any constructor, and authored methods. -/
def stubCandidate? (s : Symbol) : Option Member :=
  if s.kind == .constructor then s.member? else s.authoredMethod?

/-- A message if the body of an authored method has a certain shape. -/
def onShape (message : String) (test : Member → Profile → Bool) (s : Symbol) : Verdict :=
  match s.authoredMethod? with
  | none => .clean
  | some m =>
    match m.body with
    | none => .clean
    | some body => if test m (profile body) then .found message else .clean

/-- Methods and constructors that throw instead of doing something. -/
def notImplemented : Rule where
  id := "not-implemented"
  description := "method or constructor body throws NotImplementedException"
  kinds := [.method, .constructor]
  check _ s :=
    if (stubCandidate? s).any (throwsNotImplemented s) then
      .found "Method throws NotImplementedException instead of an implementation"
    else .clean

/-- Methods that only return null or a default value. -/
def defaultReturn : Rule where
  id := "default-return"
  description := "method body only returns null or default(T)"
  kinds := [.method]
  check _ := onShape "Method only returns a default value without implementation"
    fun _ p => p.returnsDefault

/-- Methods that only return a literal. -/
def constantReturn : Rule where
  id := "constant-return"
  description := "method body only returns a literal"
  kinds := [.method]
  check _ := onShape "Method only returns a fixed constant" fun _ p => p.returnsConstant

/-- Methods that do nothing. An empty virtual method is a place for derived types to fill. -/
def emptyBody : Rule where
  id := "empty-body"
  description := "method body has no instructions beyond a return"
  kinds := [.method]
  check _ := onShape "Method body is empty - no implementation" fun m p =>
    !m.flags.isAbstract && !m.flags.isVirtual && !m.flags.isExtern && p.isEmpty

end CilLint.Rule
