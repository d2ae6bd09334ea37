import CilLint.Symbol.Basic
import CilLint.Symbol.Skip

/-!
# Symbol tables

The types of all modules, nested ones included, in one list. Each type stands before the types nested
in it, and those stand in the order of their declaration. A type that could not be loaded is left out
with all that is nested in it, and a member that could not be loaded is left out of its type; each
leaves a skip behind. Types and members are numbered from zero in the order of the table.
-/

namespace CilLint

/-- The entries of the members that could be loaded, numbered from `start`. -/
def enumerateMembers (type : Nat) (typeName : String) (isIgnored : Bool) (start : Nat)
    (members : List Member) : List MemberEntry :=
  ((members.filter fun m => m.unresolved.isNone).zipIdx start).map fun (m, id) =>
    ⟨id, type, m, m.key typeName, isIgnored || m.ignore.isSome⟩

/-- The skips of the members that could not be loaded. -/
def memberSkips (typeName : String) (members : List Member) : List Skip :=
  members.filterMap fun m => m.unresolved.map fun reason => .member typeName m.name reason

/-- A type that waits to be entered, with what it takes over from the type around it. -/
structure Pending where
  type : TypeDef
  /-- The number of the enclosing type. -/
  parent : Option Nat := none
  /-- The full name of the enclosing type. -/
  outer : Option String := none
  /-- Whether an enclosing type has an ignore marker. -/
  isIgnored : Bool := false

namespace Pending

/-- The full name of a type that waits. -/
def fullName (p : Pending) : String := p.type.info.fullName p.outer

/-- Whether a type that waits, or one around it, has an ignore marker. -/
def carriesIgnore (p : Pending) : Bool := p.isIgnored || p.type.info.ignore.isSome

/-- A type nested in `p`, which is entered under the number `id`. -/
def child (p : Pending) (id : Nat) (type : TypeDef) : Pending :=
  ⟨type, some id, some p.fullName, p.carriesIgnore⟩

/-- Puts the types nested in `p` on a stack, the last one first. -/
def push (p : Pending) (id : Nat) (stack : List Pending) : List Pending :=
  p.type.nested.foldr (fun t stack => p.child id t :: stack) stack

theorem push_eq (p : Pending) (id : Nat) (stack : List Pending) :
    p.push id stack = p.type.nested.map (p.child id) ++ stack :=
  List.foldr_cons_eq_append

/-- The number of types that wait on a stack, those nested in others included. -/
def totalSize (stack : List Pending) : Nat := TypeDef.sizeAll (stack.map Pending.type)

theorem totalSize_lt_cons (p : Pending) (stack : List Pending) :
    totalSize stack < totalSize (p :: stack) := by
  have hpos := p.type.size_pos
  rw [totalSize, totalSize, List.map_cons, TypeDef.sizeAll]
  omega

theorem totalSize_push_lt_cons (p : Pending) (id : Nat) (stack : List Pending) :
    totalSize (p.push id stack) < totalSize (p :: stack) := by
  have hlt := p.type.sizeAll_nested_lt
  have htypes : (p.type.nested.map (p.child id)).map Pending.type = p.type.nested := by
    rw [List.map_map]
    exact List.map_id _
  rw [push_eq, totalSize, totalSize, List.map_append, htypes, TypeDef.sizeAll_append, List.map_cons,
    TypeDef.sizeAll]
  omega

end Pending

/-- A table that is being filled. -/
structure Enumeration where
  types : Array TypeEntry := #[]
  /-- The number of members of these types. -/
  members : Nat := 0
  skips : Array Skip := #[]

namespace Enumeration

/-- Notes that types are nested in another one. -/
def noteNested (parent : Option Nat) (ids : List Nat) (types : Array TypeEntry) :
    Array TypeEntry :=
  match parent with
  | none => types
  | some p => types.modify p fun t => { t with nested := t.nested ++ ids }

/-- Leaves something out. -/
def skip (e : Enumeration) (s : Skip) : Enumeration := { e with skips := e.skips.push s }

/-- The entry of the next type, before any type nested in it is entered. -/
def nextEntry (e : Enumeration) (module : Module) (p : Pending) : TypeEntry where
  id := e.types.size
  module := module
  parent := p.parent
  fullName := p.fullName
  info := p.type.info
  nested := []
  isIgnored := p.carriesIgnore
  members := enumerateMembers e.types.size p.fullName p.carriesIgnore e.members p.type.members

/-- Enters the next type. -/
def enter (e : Enumeration) (module : Module) (p : Pending) : Enumeration where
  types := (noteNested p.parent [e.types.size] e.types).push (e.nextEntry module p)
  members := e.members + (e.nextEntry module p).members.length
  skips := e.skips ++ (memberSkips p.fullName p.type.members).toArray

/-- Enters the types on a stack. The types nested in one that is entered come next, in the order of
their declaration. -/
def run (module : Module) (e : Enumeration) : List Pending → Enumeration
  | [] => e
  | p :: stack =>
    match p.type.info.unresolved with
    | some reason => run module (e.skip (.type p.fullName reason)) stack
    | none => run module (e.enter module p) (p.push e.types.size stack)
termination_by stack => Pending.totalSize stack
decreasing_by
  · exact Pending.totalSize_lt_cons p stack
  · exact Pending.totalSize_push_lt_cons p _ stack

/-- Puts the types of a module on a stack, the last one first. Those that could not be loaded are left
out. -/
def prepare (e : Enumeration) (types : List TypeDef) : Enumeration × List Pending :=
  types.foldr
    (fun t (e, stack) =>
      match t.info.unresolved with
      | some reason => (e.skip (.type (t.info.fullName none) reason), stack)
      | none => (e, { type := t } :: stack))
    (e, [])

/-- Enters the types of a module. -/
def enterModule (e : Enumeration) (m : Module) : Enumeration :=
  let (prepared, stack) := e.prepare m.manifest.types
  prepared.run m stack

end Enumeration

/-- All types of some modules, and what had to be left out. -/
structure SymbolTable where
  modules : List Module
  types : List TypeEntry
  skips : List Skip

namespace SymbolTable

/-- **The table of some modules.** -/
def ofModules (modules : List Module) : SymbolTable :=
  let all := modules.foldl Enumeration.enterModule {}
  ⟨modules, all.types.toList, all.skips.toList⟩

/-- All members, in the order of the table. -/
def members (t : SymbolTable) : List MemberEntry := t.types.flatMap TypeEntry.members

/-- All symbols, each type before its members. -/
def symbols (t : SymbolTable) : List Symbol := t.types.flatMap TypeEntry.symbols

/-- The number of symbols. -/
def symbolCount (t : SymbolTable) : Nat := t.types.length + t.members.length

/-- The number of types that were left out. -/
def skippedTypes (t : SymbolTable) : Nat := t.skips.countP Skip.isType

/-- The number of members that were left out. -/
def skippedMembers (t : SymbolTable) : Nat := t.skips.countP fun s => !s.isType

/-- Whether nothing was left out. -/
def isComplete (t : SymbolTable) : Bool := t.skips.isEmpty

/-! ### Look-up -/

/-- The first type with a given full name. -/
def findType? (t : SymbolTable) (fullName : String) : Option TypeEntry :=
  t.types.find? fun e => e.fullName == fullName

/-- The member with a given key, in the first type with its type's name. -/
def findKey? (t : SymbolTable) (key : MemberKey) : Option Symbol := do
  let type ← t.findType? key.declaringType
  let m ← type.members.find? fun m => m.key == key
  return ⟨type, some m⟩

/-- The first member with a given name, in the first type with a given full name. -/
def findMember? (t : SymbolTable) (typeName name : String) : Option Symbol := do
  let type ← t.findType? typeName
  let m ← type.members.find? fun m => m.member.name == name
  return ⟨type, some m⟩

/-- The symbol at a given position. The handles of a table's symbols name a type and one of its own
members. A handle put together by hand may pair a type with a member of another type: a lookup by the
two numbers alone would give back that pair, while here there is no symbol at such a handle. -/
def symbol? (t : SymbolTable) (h : Handle) : Option Symbol := do
  let type ← t.types[h.type]?
  match h.member with
  | none => return ⟨type, none⟩
  | some id =>
    let m ← type.members.find? fun m => m.id == id
    return ⟨type, some m⟩

end SymbolTable

end CilLint
