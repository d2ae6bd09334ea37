import Std.Data.HashMap
import CilLint.Manifest.Basic

/-!
# Modules

A module is a manifest with the map from its tokens to members. Every member of every type, at any
depth and loaded or not, is entered under its token unless that is nil; then the references are
entered in order. A later entry replaces an earlier one, so references win over members. Types are
entered from the last to the first, and each type before the types nested in it.
-/

namespace CilLint

/-- A map from tokens to the members they stand for. -/
abbrev TokenMap := Std.HashMap Token MemberKey

namespace TokenMap

/-- Enters the members of one type. -/
def enterMembers (typeName : String) (members : List Member) (map : TokenMap) : TokenMap :=
  members.foldl (fun map m => if m.token.isNil then map else map.insert m.token (m.key typeName)) map

mutual

/-- Enters the members of a type and then those of the types nested in it. -/
def enterType (outer : Option String) : TypeDef → TokenMap → TokenMap
  | .node info members nested, map =>
    let name := info.fullName outer
    enterTypes (some name) nested (enterMembers name members map)

/-- Enters the members of several types, from the last to the first. -/
def enterTypes (outer : Option String) : List TypeDef → TokenMap → TokenMap
  | [], map => map
  | t :: ts, map => enterType outer t (enterTypes outer ts map)

end

/-- Enters references, in order. -/
def enterReferences (references : List Reference) (map : TokenMap) : TokenMap :=
  references.foldl (fun map r => map.insert r.token r.key) map

/-- The token map of a manifest. -/
def ofManifest (m : Manifest) : TokenMap := enterReferences m.references (enterTypes none m.types ∅)

end TokenMap

/-- A manifest and its token map. -/
structure Module where
  manifest : Manifest
  tokens : TokenMap

namespace Module

/-- The module that a manifest describes. -/
def ofManifest (m : Manifest) : Module := ⟨m, TokenMap.ofManifest m⟩

/-- A module with nothing in it. -/
def empty (name : String) : Module := ofManifest { name }

/-- The name of a module. -/
def name (m : Module) : String := m.manifest.name

/-- Where a module came from. -/
def location (m : Module) : Option String := m.manifest.location

/-- The member that a token stands for in this module. -/
def resolve? (m : Module) (t : Token) : Option MemberKey := m.tokens[t]?

/-! ### Building modules step by step -/

/-- A module with one more type, after those it has. -/
def withType (m : Module) (t : TypeDef) : Module :=
  ofManifest { m.manifest with types := m.manifest.types ++ [t] }

/-- A module that came from elsewhere. -/
def withLocation (m : Module) (location : String) : Module :=
  { m with manifest := { m.manifest with location := some location } }

/-- A module with one more reference, after those it has. -/
def withReference (m : Module) (token : Token) (target : MemberKey) : Module where
  manifest :=
    { m.manifest with references := m.manifest.references ++ [Reference.toKey token target] }
  tokens := m.tokens.insert token target

end Module

end CilLint
