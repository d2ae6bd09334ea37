import CilLint.Naming
import CilLint.Symbol.Basic

/-!
# Exclusions

Members that are never called dead, because something outside of the bytecode may reach them: the
public surface, inheritance, callbacks by name, handlers, reflection. `exclusion?` gives the first
reason that applies.
-/

namespace CilLint

/-- Why a member is never called dead. -/
inductive Exclusion where
  | publicSurface | compilerGenerated | inheritance | lifecycle | eventHandler | constant
  | reflectionBound | staticConstructor | synthesized
  deriving DecidableEq, Repr

/-- The name of a reason. -/
def Exclusion.name : Exclusion → String
  | .publicSurface => "public"
  | .compilerGenerated => "compiler-generated"
  | .inheritance => "inheritance"
  | .lifecycle => "lifecycle"
  | .eventHandler => "event-handler"
  | .constant => "constant"
  | .reflectionBound => "reflection-bound"
  | .staticConstructor => "static-constructor"
  | .synthesized => "synthesized"

/-- Entry points and callbacks that are called by name. -/
def lifecycleNames : List String :=
  ["Main", "Awake", "Start", "Update", "FixedUpdate", "LateUpdate", "OnEnable", "OnDisable",
    "OnDestroy", "OnValidate", "OnGUI", "OnApplicationQuit", "OnApplicationPause", "Reset",
    "Dispose", "DisposeAsync", "Finalize", "ToString", "Equals", "GetHashCode", "Configure",
    "ConfigureServices"]

/-- Methods of enums and delegates that the runtime provides. -/
def synthesizedNames : List String :=
  ["HasFlag", "CompareTo", "CombineImpl", "GetObjectData", "GetInvocationList", "BeginInvoke",
    "EndInvoke", "Invoke"]

/-- Attributes of members that are bound by reflection. -/
def reflectionAttributes : List String :=
  ["SerializeField", "DataMember", "JsonProperty", "JsonPropertyName", "XmlElement"]

/-- Whether a method is called by name. -/
def isLifecycleName (name : String) : Bool := lifecycleNames.contains name

/-- Whether parameters are a sender and the arguments of an event. -/
def isHandlerSignature : List String → Bool
  | [sender, arguments] =>
    (sender == "object" || sender == "System.Object") && Text.endsWith arguments "EventArgs"
  | _ => false

/-- Whether a member handles events, by its parameters or by its name. -/
def Member.isEventHandler (m : Member) : Bool :=
  isHandlerSignature m.parameters || Naming.isHandler m.name

/-- Whether the runtime provides a member of a type. -/
def isSynthesized (info : TypeInfo) (m : Member) : Bool :=
  (info.flags.isEnum || info.hasAttribute "Delegate") && synthesizedNames.contains m.name ||
    Text.startsWith m.name "System.IConvertible."

/-- Whether the compiler made a member or its type. -/
def isGeneratedMember (info : TypeInfo) (m : Member) : Bool :=
  m.flags.isCompilerGenerated || Naming.isGenerated m.name || info.isCompilerGenerated ||
    Naming.isGenerated info.name

/-- The reason that depends on the kind of a member. -/
def kindExclusion? (m : Member) : Option Exclusion :=
  match m.kind with
  | .method | .constructor =>
    if isLifecycleName m.name then some .lifecycle
    else if m.isEventHandler then some .eventHandler
    else none
  | .field => if m.flags.isLiteral then some .constant else none
  | .property | .event => none

/-- The first reason why a member of a type is never called dead. -/
def memberExclusion? (info : TypeInfo) (m : Member) : Option Exclusion :=
  if m.flags.isPublic then some .publicSurface
  else if isGeneratedMember info m then some .compilerGenerated
  else if m.flags.isVirtual || m.flags.isOverride || m.flags.isAbstract || info.flags.isInterface
  then some .inheritance
  else if m.name == ".cctor" then some .staticConstructor
  else if isSynthesized info m then some .synthesized
  else
    match kindExclusion? m with
    | some reason => some reason
    | none => if reflectionAttributes.any m.hasAttribute then some .reflectionBound else none

/-- **The first reason why a symbol is never called dead.** Types have none. -/
def exclusion? (s : Symbol) : Option Exclusion :=
  s.member?.bind (memberExclusion? s.declaringType.info)

end CilLint
