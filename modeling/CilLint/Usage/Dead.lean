import CilLint.Usage.Exclusion
import CilLint.Usage.Index

/-!
# Dead members

Members that nothing uses, as far as the bytecode shows: fields that are never loaded, methods that no
other body calls, and properties whose getter is never called. Storing a field is no use of it.
-/

namespace CilLint

namespace ReferenceIndex

/-- Whether a symbol is a field that is never loaded. -/
def isUnusedField (index : ReferenceIndex) (s : Symbol) : Bool :=
  s.kind == .field && (exclusion? s).isNone && s.key?.any fun k => !index.isRead k

/-- Whether a symbol is a method that no other body calls. -/
def isUnusedMethod (index : ReferenceIndex) (s : Symbol) : Bool :=
  s.kind == .method && (s.member?.any fun m => !m.flags.hasSpecialName) &&
    (exclusion? s).isNone && s.key?.any fun k => !index.isCalled k

/-- Whether a symbol is a property whose getter is never called. -/
def isUnusedProperty (index : ReferenceIndex) (s : Symbol) : Bool :=
  s.kind == .property && (exclusion? s).isNone &&
    s.entry.any fun e => !index.isPropertyRead e.key e.member.getterName

/-- Whether a symbol is a member that nothing uses. -/
def isDead (index : ReferenceIndex) (s : Symbol) : Bool :=
  index.isUnusedField s || index.isUnusedMethod s || index.isUnusedProperty s

end ReferenceIndex

/-- **The dead members of a table** that are not ignored, in the order of the table. -/
def SymbolTable.deadMembers (t : SymbolTable) (index : ReferenceIndex) : List Symbol :=
  t.symbols.filter fun s => !s.isIgnored && index.isDead s

end CilLint
