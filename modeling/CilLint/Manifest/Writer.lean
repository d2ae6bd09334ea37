import CilLint.Document.Basic
import CilLint.Manifest.Basic

/-!
# Writing manifests

The document of a manifest, with every field present: tokens as numbers, bodies in upper-case
hexadecimal, and null for what is absent.
-/

namespace CilLint

open Document (texts option)

/-- The document of a token. -/
def Token.write (t : Token) : Document := .natural t.value.toNat

/-- The document of an ignore marker. -/
def IgnoreMarker.write (marker : IgnoreMarker) : Document := .text marker.justification

/-- The document of a body. -/
def writeBody (bytes : List UInt8) : Document := .text (Text.hexOfBytes bytes)

/-- The document of the flags of a member. -/
def MemberFlags.write (f : MemberFlags) : Document :=
  .record [
    ("public", .bool f.isPublic),
    ("static", .bool f.isStatic),
    ("abstract", .bool f.isAbstract),
    ("virtual", .bool f.isVirtual),
    ("override", .bool f.isOverride),
    ("extern", .bool f.isExtern),
    ("special_name", .bool f.hasSpecialName),
    ("literal", .bool f.isLiteral),
    ("compiler_generated", .bool f.isCompilerGenerated)]

/-- The document of a member. -/
def Member.write (m : Member) : Document :=
  .record [
    ("name", .text m.name),
    ("kind", .text m.kind.name),
    ("token", m.token.write),
    ("flags", m.flags.write),
    ("return_type", option .text m.returnType),
    ("parameters", texts m.parameters),
    ("attributes", texts m.attributes),
    ("getter", option .text m.getter),
    ("ignore", option IgnoreMarker.write m.ignore),
    ("unresolved", option .text m.unresolved),
    ("body", option writeBody m.body)]

/-- The document of the flags of a type. -/
def TypeFlags.write (f : TypeFlags) : Document :=
  .record [
    ("public", .bool f.isPublic),
    ("abstract", .bool f.isAbstract),
    ("interface", .bool f.isInterface),
    ("enum", .bool f.isEnum),
    ("sealed", .bool f.isSealed),
    ("compiler_generated", .bool f.isCompilerGenerated)]

mutual

/-- The document of a type. -/
def TypeDef.write : TypeDef → Document
  | .node info members nested =>
    .record [
      ("name", .text info.name),
      ("namespace", .text info.nameSpace),
      ("flags", info.flags.write),
      ("attributes", texts info.attributes),
      ("ignore", option IgnoreMarker.write info.ignore),
      ("unresolved", option .text info.unresolved),
      ("enum_values", texts info.enumValues),
      ("nested", .list (TypeDef.writeAll nested)),
      ("members", .list (members.map Member.write))]

/-- The documents of several types. -/
def TypeDef.writeAll : List TypeDef → List Document
  | [] => []
  | t :: ts => t.write :: TypeDef.writeAll ts

end

/-- The document of a reference. -/
def Reference.write (r : Reference) : Document :=
  .record [
    ("token", r.token.write),
    ("declaring_type", .text r.declaringType),
    ("name", .text r.name),
    ("parameters", texts r.parameters)]

/-- The document of a key. Only here empty parameters are left out. -/
def MemberKey.write (k : MemberKey) : Document :=
  .record ([("declaring_type", .text k.declaringType), ("name", .text k.name)] ++
    (if k.parameters.isEmpty then [] else [("parameters", texts k.parameters)]))

/-- **The document of a manifest.** -/
def Manifest.write (m : Manifest) : Document :=
  .record [
    ("name", .text m.name),
    ("location", option .text m.location),
    ("types", .list (TypeDef.writeAll m.types)),
    ("references", .list (m.references.map Reference.write))]

end CilLint
