import CilLint.Bytecode.Decode

/-!
# Profiles

What the shape of a body says about it. Compilers that build for debugging put no-operations into
bodies, and send results through a local: store it, branch to the next instruction, load it again.
`significant` drops both, so a body keeps its shape whichever way it was compiled. Whether a body
calls or branches is judged on all of its instructions.
-/

namespace CilLint

/-- Whether instructions begin with a return shuttle: a local is stored, a branch goes to the
instruction right after it, and that loads the same local. -/
def isShuttle : List Instruction → Bool
  | store :: jump :: load :: _ =>
    match store.storedLocal? with
    | none => false
    | some slot =>
      (jump.is Code.brS || jump.is Code.br) && jump.target? == some (load.offset : Int) &&
        load.loadedLocal? == some slot
  | _ => false

/-- The instructions without no-operations and return shuttles, scanned from the left. -/
def significant : List Instruction → List Instruction
  | [] => []
  | i :: rest =>
    if i.is Code.nop then significant rest
    else if isShuttle (i :: rest) then significant (rest.drop 2)
    else i :: significant rest
termination_by is => is.length
decreasing_by
  all_goals simp only [List.length_cons, List.length_drop]
  all_goals omega

/-- Whether instructions do nothing, or only return. -/
def doesNothing : List Instruction → Bool
  | [] => true
  | [only] => only.opcode.flow == .leave
  | _ => false

/-- Whether instructions push a literal and return it. -/
def returnsLiteral : List Instruction → Bool
  | [load, ret] => load.isLiteral && ret.is Code.ret
  | _ => false

/-- Whether instructions return null or a fresh default value. -/
def returnsDefault : List Instruction → Bool
  | [load, ret] => load.is Code.ldnull && ret.is Code.ret
  | [address, init, load, ret] =>
    match address.addressedLocal? with
    | none => false
    | some slot => init.is Code.initobj && load.loadedLocal? == some slot && ret.is Code.ret
  | _ => false

/-- What the shape of a body says about it. -/
structure Profile where
  /-- The number of all instructions. -/
  length : Nat
  /-- The number of significant instructions. -/
  significant : Nat
  hasCall : Bool
  hasBranch : Bool
  returnsConstant : Bool := false
  returnsDefault : Bool := false
  isEmpty : Bool := false
  /-- Why the body could not be decoded to its end. -/
  error : Option DecodeError := none
  deriving DecidableEq, Repr

/-- The profile of decoded instructions. The shape of a body that does not decode to its end is not
judged. -/
def Profile.ofDecoded (d : Decoded) : Profile :=
  let kept := CilLint.significant d.instructions
  let whole := d.error.isNone
  { length := d.instructions.length
    significant := kept.length
    hasCall := d.instructions.any fun i => i.opcode.isCall
    hasBranch := d.instructions.any fun i => i.opcode.isBranch
    returnsConstant := whole && returnsLiteral kept
    returnsDefault := whole && CilLint.returnsDefault kept
    isEmpty := whole && doesNothing kept
    error := d.error }

/-- **The profile of a body.** -/
def profile (body : List UInt8) : Profile := .ofDecoded (decode body)

end CilLint
