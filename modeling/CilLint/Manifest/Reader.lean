import CilLint.Document.Nesting
import CilLint.Document.Read
import CilLint.Manifest.Basic

/-!
# Reading manifests

Manifests, types, members and references out of documents. A token is a number or a text that writes
one, a body is hexadecimal text with white space anywhere in it, and an ignore marker is a text that
is not blank. Only the names of modules, members and references, the kinds of members and the tokens
and types of references are required; everything else has a default.
-/

namespace CilLint

open Document (Read ReadError readText readBool readList readOption orShape)

/-- Reads the text of a token. -/
def Token.readText (s : String) : Read Token :=
  match Token.parse? s with
  | some t => .ok t
  | none => .error (.badToken s)

/-- Reads a token: a number, or a text that writes one. -/
def Token.read : Document → Read Token
  | .integer n => orShape (if 0 ≤ n then Token.ofNat? n.toNat else none)
  | .text s => Token.readText s
  | .plain s =>
    match Plain.resolve s with
    | .integer n => orShape (if 0 ≤ n then Token.ofNat? n.toNat else none)
    | .text => Token.readText s
    | _ => .error .badShape
  | _ => .error .badShape

/-- Reads an ignore marker. -/
def IgnoreMarker.read (d : Document) : Read IgnoreMarker := do
  match IgnoreMarker.ofText? (← readText d) with
  | some marker => .ok marker
  | none => .error .emptyJustification

/-- Reads a body. -/
def readBody (d : Document) : Read (List UInt8) := do
  match Text.bytesOfHex (Text.withoutWhite (← readText d)) with
  | .ok bytes => .ok bytes
  | .error cause => .error (.badHex cause)

/-- The fields of member flags, in their declared order. -/
def MemberFlags.fieldNames : List String :=
  ["public", "static", "abstract", "virtual", "override", "extern", "special_name", "literal",
    "compiler_generated"]

/-- Reads the flags of a member. -/
def MemberFlags.read (d : Document) : Read MemberFlags := do
  let f ← d.fields fieldNames
  return {
    isPublic := ← f.flag "public"
    isStatic := ← f.flag "static"
    isAbstract := ← f.flag "abstract"
    isVirtual := ← f.flag "virtual"
    isOverride := ← f.flag "override"
    isExtern := ← f.flag "extern"
    hasSpecialName := ← f.flag "special_name"
    isLiteral := ← f.flag "literal"
    isCompilerGenerated := ← f.flag "compiler_generated" }

/-- The fields of a member, in their declared order. -/
def Member.fieldNames : List String :=
  ["name", "kind", "token", "flags", "return_type", "parameters", "attributes", "getter", "ignore",
    "unresolved", "body"]

/-- Reads a member. -/
def Member.read (d : Document) : Read Member := do
  let f ← d.fields fieldNames
  return {
    name := ← f.required "name" readText
    kind := ← f.required "kind" (Document.readName MemberKind.ofName?)
    token := ← f.optional "token" ⟨0⟩ Token.read
    flags := ← f.optional "flags" {} MemberFlags.read
    returnType := ← f.option "return_type" readText
    parameters := ← f.texts "parameters"
    attributes := ← f.texts "attributes"
    getter := ← f.option "getter" readText
    ignore := ← f.option "ignore" IgnoreMarker.read
    unresolved := ← f.option "unresolved" readText
    body := ← f.option "body" readBody }

/-- The fields of type flags, in their declared order. -/
def TypeFlags.fieldNames : List String :=
  ["public", "abstract", "interface", "enum", "sealed", "compiler_generated"]

/-- Reads the flags of a type. -/
def TypeFlags.read (d : Document) : Read TypeFlags := do
  let f ← d.fields fieldNames
  return {
    isPublic := ← f.flag "public"
    isAbstract := ← f.flag "abstract"
    isInterface := ← f.flag "interface"
    isEnum := ← f.flag "enum"
    isSealed := ← f.flag "sealed"
    isCompilerGenerated := ← f.flag "compiler_generated" }

/-- The fields of a type, in their declared order. -/
def TypeDef.fieldNames : List String :=
  ["name", "namespace", "flags", "attributes", "ignore", "unresolved", "enum_values", "nested",
    "members"]

/-- Reads what a type declares, apart from nested types and members. -/
def TypeInfo.read (f : Document.Fields) : Read TypeInfo := do
  return {
    name := ← f.optional "name" "" readText
    nameSpace := ← f.optional "namespace" "" readText
    flags := ← f.optional "flags" {} TypeFlags.read
    attributes := ← f.texts "attributes"
    ignore := ← f.option "ignore" IgnoreMarker.read
    unresolved := ← f.option "unresolved" readText
    enumValues := ← f.texts "enum_values" }

/-- Reads a type whose document is at most so deep. -/
def TypeDef.readWithin : Nat → Document → Read TypeDef
  | 0, _ => .error .badShape
  | depth + 1, d => do
    let f ← d.fields fieldNames
    let info ← TypeInfo.read f
    let nested ← f.optional "nested" [] (readList (TypeDef.readWithin depth))
    let members ← f.optional "members" [] (readList Member.read)
    return .node info members nested

/-- Reads a type. A nested type lies deeper in the document than the type around it, so the depth of
the document bounds the nesting. -/
def TypeDef.read (d : Document) : Read TypeDef := TypeDef.readWithin (d.depth + 1) d

/-- Reads a reference. -/
def Reference.read (d : Document) : Read Reference := do
  let f ← d.fields ["token", "declaring_type", "name", "parameters"]
  return {
    token := ← f.required "token" Token.read
    declaringType := ← f.required "declaring_type" readText
    name := ← f.required "name" readText
    parameters := ← f.texts "parameters" }

/-- Reads a key. -/
def MemberKey.read (d : Document) : Read MemberKey := do
  let f ← d.fields ["declaring_type", "name", "parameters"]
  return {
    declaringType := ← f.required "declaring_type" readText
    name := ← f.required "name" readText
    parameters := ← f.texts "parameters" }

/-- **Reads a manifest.** -/
def Manifest.read (d : Document) : Read Manifest := do
  let f ← d.fields ["name", "location", "types", "references"]
  return {
    name := ← f.required "name" readText
    location := ← f.option "location" readText
    types := ← f.optional "types" [] (readList TypeDef.read)
    references := ← f.optional "references" [] (readList Reference.read) }

end CilLint
