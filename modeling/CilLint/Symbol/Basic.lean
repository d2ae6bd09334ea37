import CilLint.Module
import CilLint.Text.Quoted

/-!
# Symbols

A symbol is a type or a member of a type, as rules see it: with the type it belongs to, the module
that holds it, and whether it is ignored. Types and members are numbered in the order of the table,
and a handle gives the numbers.
-/

namespace CilLint

/-- What a symbol is. -/
inductive SymbolKind where
  | type | constructor | method | property | field | event
  deriving DecidableEq, Repr

namespace SymbolKind

/-- All kinds. -/
def all : List SymbolKind := [.type, .constructor, .method, .property, .field, .event]

/-- The name of a kind. -/
def name : SymbolKind → String
  | .type => "type"
  | .constructor => "constructor"
  | .method => "method"
  | .property => "property"
  | .field => "field"
  | .event => "event"

/-- The kind with a given name. -/
def ofName? (s : String) : Option SymbolKind := all.find? fun k => k.name == s

/-- The name of a kind as the description of a symbol writes it. -/
def title : SymbolKind → String
  | .type => "Type"
  | .constructor => "Constructor"
  | .method => "Method"
  | .property => "Property"
  | .field => "Field"
  | .event => "Event"

/-- Whether a symbol of this kind can have a body. -/
def isCallable : SymbolKind → Bool
  | .constructor | .method => true
  | _ => false

/-- The kind of a member as a symbol. -/
def ofMember : MemberKind → SymbolKind
  | .constructor => .constructor
  | .method => .method
  | .property => .property
  | .field => .field
  | .event => .event

end SymbolKind

/-- A member in the table. -/
structure MemberEntry where
  /-- The position among all members of the table. -/
  id : Nat
  /-- The position of the type that declares the member. -/
  type : Nat
  member : Member
  key : MemberKey
  /-- Whether the member or an enclosing type has an ignore marker. -/
  isIgnored : Bool

/-- A type in the table. -/
structure TypeEntry where
  /-- The position among all types of the table. -/
  id : Nat
  module : Module
  /-- The position of the type around this one. -/
  parent : Option Nat
  fullName : String
  info : TypeInfo
  /-- The positions of the types nested directly in this one. -/
  nested : List Nat
  /-- Whether the type or an enclosing type has an ignore marker. -/
  isIgnored : Bool
  members : List MemberEntry

/-- The position of a symbol in the table. -/
structure Handle where
  type : Nat
  member : Option Nat
  deriving DecidableEq, Repr

/-- A type, or a member with its type. -/
structure Symbol where
  declaringType : TypeEntry
  entry : Option MemberEntry

/-- The symbols of a type: itself and its members. -/
def TypeEntry.symbols (t : TypeEntry) : List Symbol :=
  ⟨t, none⟩ :: t.members.map fun m => ⟨t, some m⟩

namespace Symbol

/-- The member, if the symbol is one. -/
def member? (s : Symbol) : Option Member := s.entry.map MemberEntry.member

/-- The key of a member. -/
def key? (s : Symbol) : Option MemberKey := s.entry.map MemberEntry.key

/-- What a symbol is. -/
def kind (s : Symbol) : SymbolKind :=
  match s.entry with
  | none => .type
  | some m => .ofMember m.member.kind

/-- The name of a symbol, without the name of its type. -/
def name (s : Symbol) : String :=
  match s.entry with
  | none => s.declaringType.info.name
  | some m => m.member.name

/-- The full name of the type of a symbol. -/
def typeName (s : Symbol) : String := s.declaringType.fullName

/-- The module that holds a symbol. -/
def module (s : Symbol) : Module := s.declaringType.module

/-- The bytecode of a symbol. -/
def body? (s : Symbol) : Option (List UInt8) := s.member?.bind Member.body

/-- Whether a symbol is taken out of every pass. -/
def isIgnored (s : Symbol) : Bool :=
  match s.entry with
  | none => s.declaringType.isIgnored
  | some m => m.isIgnored

/-- The position of a symbol. -/
def handle (s : Symbol) : Handle := ⟨s.declaringType.id, s.entry.map MemberEntry.id⟩

/-- A one-line description of a symbol. -/
def describe (s : Symbol) : String :=
  "Symbol \x7b kind: " ++ s.kind.title ++ ", type: " ++ Text.quote s.typeName ++
    ", name: " ++ Text.quote s.name ++ ", module: " ++ Text.quote s.module.name ++ " \x7d"

end Symbol

end CilLint
