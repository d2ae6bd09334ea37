import Std.Data.HashMap
import Std.Data.HashSet
import CilLint.Bytecode.Decode
import CilLint.Symbol.Table

/-!
# Reference indexes

Who reads, writes and calls what. Every body of a table is decoded, and the tokens of its field and
call instructions are resolved through the module of the body, so a reference counts for exactly the
member that it names. A call of a member from its own body does not count.

What cannot be decoded or resolved might refer to anything, and so might what was left out of the
table. Then the answers for fields, for calls or for both are degraded: every member counts as used.
-/

namespace CilLint

/-- What an instruction does with the member that it names. -/
inductive Access where
  | load | store | call
  deriving DecidableEq, Repr

/-- What instructions with a given code do with a member. -/
def Access.ofCode? (code : UInt16) : Option Access :=
  if [Code.ldfld, Code.ldflda, Code.ldsfld, Code.ldsflda].contains code then some .load
  else if [Code.stfld, Code.stsfld].contains code then some .store
  else if [Code.call, Code.callvirt, Code.newobj, Code.jmp, Code.ldftn, Code.ldvirtftn].contains code
  then some .call
  else none

/-- What an instruction does with which token. -/
def Instruction.access? (i : Instruction) : Option (Access × Token) := do
  let access ← Access.ofCode? i.opcode.code
  let token ← i.token?
  return (access, token)

/-- A body, the member it belongs to and the module that resolves its tokens. -/
structure Body where
  module : Module
  owner : MemberKey
  bytes : List UInt8

/-- The bodies of the members of a type. -/
def TypeEntry.bodies (t : TypeEntry) : List Body :=
  t.members.filterMap fun m => m.member.body.map fun bytes => ⟨t.module, m.key, bytes⟩

/-- The bodies of a table. -/
def SymbolTable.bodies (t : SymbolTable) : List Body := t.types.flatMap TypeEntry.bodies

/-- The references of some bodies. -/
structure ReferenceIndex where
  /-- How often each field is loaded. -/
  reads : Std.HashMap MemberKey Nat := ∅
  /-- How often each field is stored. -/
  writes : Std.HashMap MemberKey Nat := ∅
  /-- The members that call each member. -/
  callers : Std.HashMap MemberKey (Std.HashSet MemberKey) := ∅
  /-- The number of bodies. -/
  bodies : Nat := 0
  fieldsDegraded : Bool := false
  callsDegraded : Bool := false

namespace ReferenceIndex

/-- Counts one more occurrence of a key. -/
def bump (counts : Std.HashMap MemberKey Nat) (key : MemberKey) (n : Nat) :
    Std.HashMap MemberKey Nat :=
  counts.insert key (counts.getD key 0 + n)

/-- Adds to the callers of a key. -/
def addCallers (callers : Std.HashMap MemberKey (Std.HashSet MemberKey)) (key : MemberKey)
    (more : List MemberKey) : Std.HashMap MemberKey (Std.HashSet MemberKey) :=
  callers.insert key ((callers.getD key ∅).insertMany more)

/-- Records what an instruction of `owner` does with a member. -/
def record (index : ReferenceIndex) (owner : MemberKey) (access : Access) (target : MemberKey) :
    ReferenceIndex :=
  match access with
  | .load => { index with reads := bump index.reads target 1 }
  | .store => { index with writes := bump index.writes target 1 }
  | .call =>
    if target = owner then index
    else { index with callers := addCallers index.callers target [owner] }

/-- Records that the member an instruction names is not known. -/
def recordUnknown (index : ReferenceIndex) : Access → ReferenceIndex
  | .load | .store => { index with fieldsDegraded := true }
  | .call => { index with callsDegraded := true }

/-- Records an instruction of a body. -/
def scanInstruction (body : Body) (index : ReferenceIndex) (i : Instruction) : ReferenceIndex :=
  match i.access? with
  | none => index
  | some (access, token) =>
    match body.module.resolve? token with
    | none => index.recordUnknown access
    | some target => index.record body.owner access target

/-- Degrades both kinds of answers on a condition. -/
def degradeIf (condition : Bool) (index : ReferenceIndex) : ReferenceIndex :=
  { index with
    fieldsDegraded := index.fieldsDegraded || condition
    callsDegraded := index.callsDegraded || condition }

/-- Records a body. -/
def scanBody (index : ReferenceIndex) (body : Body) : ReferenceIndex :=
  let decoded := decode body.bytes
  let counted := degradeIf decoded.error.isSome { index with bodies := index.bodies + 1 }
  decoded.instructions.foldl (scanInstruction body) counted

/-- The references of two sets of bodies together. -/
def merge (a b : ReferenceIndex) : ReferenceIndex where
  reads := b.reads.fold bump a.reads
  writes := b.writes.fold bump a.writes
  callers := b.callers.fold (fun all key more => addCallers all key more.toList) a.callers
  bodies := a.bodies + b.bodies
  fieldsDegraded := a.fieldsDegraded || b.fieldsDegraded
  callsDegraded := a.callsDegraded || b.callsDegraded

/-- The index of some bodies. -/
def ofBodies (bodies : List Body) : ReferenceIndex := bodies.foldl scanBody {}

/-- **The index of a table.** -/
def ofTable (t : SymbolTable) : ReferenceIndex := degradeIf (!t.isComplete) (ofBodies t.bodies)

/-! ### Queries -/

/-- Whether a field may be loaded. -/
def isRead (index : ReferenceIndex) (field : MemberKey) : Bool :=
  index.fieldsDegraded || index.reads.contains field

/-- Whether a field may be stored. -/
def isWritten (index : ReferenceIndex) (field : MemberKey) : Bool :=
  index.fieldsDegraded || index.writes.contains field

/-- How often a field is loaded for certain. -/
def readCount (index : ReferenceIndex) (field : MemberKey) : Nat := index.reads.getD field 0

/-- The members that call a member for certain, in order. -/
def callersOf (index : ReferenceIndex) (method : MemberKey) : List MemberKey :=
  (index.callers.getD method ∅).toList.mergeSort fun a b => (compare a b).isLE

/-- Whether a member may be called from another body. -/
def isCalled (index : ReferenceIndex) (method : MemberKey) : Bool :=
  index.callsDegraded || !(index.callers.getD method ∅).isEmpty

/-- Whether the accessor that reads a property may be called. -/
def isPropertyRead (index : ReferenceIndex) (property : MemberKey) (getter : String) : Bool :=
  index.isCalled ⟨property.declaringType, getter, []⟩

/-- Whether some answers are degraded. -/
def isDegraded (index : ReferenceIndex) : Bool := index.fieldsDegraded || index.callsDegraded

end ReferenceIndex

end CilLint
