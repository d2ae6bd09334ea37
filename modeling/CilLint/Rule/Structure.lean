import CilLint.Rule.Basic

/-!
# Rules on types

Types that are unfinished as a whole: concrete types with abstract members, classes with nothing in
them, and enums without meaningful values.
-/

namespace CilLint.Rule

/-- Concrete types that still declare abstract members. -/
def incompleteType : Rule where
  id := "incomplete-type"
  description := "concrete type declares abstract members"
  kinds := [.type]
  check _ s :=
    let type := s.declaringType
    let flags := type.info.flags
    if flags.isAbstract || flags.isInterface || flags.isEnum then .clean
    else
      let missing := (type.members.filter fun m => m.member.flags.isAbstract).map fun m => m.member.name
      if missing.isEmpty then .clean
      else .found ("Concrete type has unimplemented abstract members: " ++
        String.intercalate ", " missing)

/-- Endings of the names of types that need no members. -/
def markerSuffixes : List String := ["Attribute", "Exception", "EventArgs"]

/-- Classes that declare nothing but constructors. -/
def placeholderType : Rule where
  id := "placeholder-type"
  description := "class declares no members and no nested types"
  kinds := [.type]
  check _ s :=
    let type := s.declaringType
    let flags := type.info.flags
    if flags.isInterface || flags.isEnum || flags.isAbstract || !type.nested.isEmpty ||
        markerSuffixes.any (Text.endsWith type.info.name) ||
        type.members.any fun m => m.member.kind != .constructor then
      .clean
    else .found "Type is a placeholder with no members"

/-- Names of enum values that mean nothing by themselves, in lower case. -/
def emptyValueNames : List String :=
  ["none", "default", "todo", "temp", "placeholder", "unknown"]

/-- Whether the name of an enum value speaks of something still to come. -/
def isPlaceholderValue (value : String) : Bool :=
  Text.contains value "Placeholder" || Text.contains value "TODO" || Text.contains value "Temp"

/-- Enums with at most one meaningful value, or with values that stand for others. -/
def hollowEnum : Rule where
  id := "hollow-enum"
  description := "enum defines no meaningful values"
  kinds := [.type]
  check _ s :=
    let info := s.declaringType.info
    if !info.flags.isEnum then .clean
    else if info.enumValues.countP (fun v => !emptyValueNames.contains (Text.lower v)) ≤ 1 then
      .found "Hollow enum - enum has no or minimal values defined"
    else
      let placeholders := info.enumValues.filter isPlaceholderValue
      if placeholders.isEmpty then .clean
      else .found ("Hollow enum - contains placeholder values: " ++
        String.intercalate ", " placeholders)

end CilLint.Rule
