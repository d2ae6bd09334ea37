import CilLint.Bytecode.OpcodeTable
import CilLint.Decimal.Format
import CilLint.Text.Hex
import CilLint.Token

/-!
# Instructions

A decoded instruction: where it starts and stops, its opcode and its operand. Branch and switch
targets are absolute offsets, which may lie outside the body. Floating-point operands are kept as
their bits, so that nothing of the body is lost.
-/

namespace CilLint

/-- The operand of an instruction. -/
inductive Operand where
  | none
  | int (value : Int)
  | long (value : Int)
  /-- The bits of a single-precision number. -/
  | single (bits : UInt32)
  /-- The bits of a double-precision number. -/
  | double (bits : UInt64)
  | branch (target : Int)
  | token (token : Token)
  /-- An argument or local slot. -/
  | var (slot : Nat)
  | switch (targets : List Int)
  deriving DecidableEq, Repr

/-- A decoded instruction. -/
structure Instruction where
  offset : Nat
  opcode : Opcode
  operand : Operand
  /-- The offset of the next instruction. -/
  stop : Nat
  deriving DecidableEq, Repr

namespace Instruction

/-- Whether an instruction has a given code. -/
def is (i : Instruction) (code : UInt16) : Bool := i.opcode.code == code

/-- The token that an instruction names. -/
def token? (i : Instruction) : Option Token :=
  match i.operand with
  | .token t => some t
  | _ => none

/-- The offset that an instruction branches to; switches have none. -/
def target? (i : Instruction) : Option Int :=
  match i.operand with
  | .branch t => some t
  | _ => none

/-- The argument or local slot that an instruction names in its operand. -/
def slot? (i : Instruction) : Option Nat :=
  match i.operand with
  | .var n => some n
  | _ => none

/-- The number pushed by a floating-point load. -/
def real? (i : Instruction) : Option Float :=
  match i.operand with
  | .single bits => some (Float32.ofBits bits).toFloat
  | .double bits => some (Float.ofBits bits)
  | _ => none

/-- Whether an instruction pushes a number or string literal. -/
def isLiteral (i : Instruction) : Bool :=
  (Code.ldcI4M1 ≤ i.opcode.code && i.opcode.code ≤ Code.ldcR8) || i.is Code.ldstr

/-- The local slot that an instruction pushes the value of. -/
def loadedLocal? (i : Instruction) : Option Nat :=
  if Code.ldloc0 ≤ i.opcode.code ∧ i.opcode.code ≤ Code.ldloc3 then
    some (i.opcode.code - Code.ldloc0).toNat
  else if i.is Code.ldlocS || i.is Code.ldloc then i.slot?
  else none

/-- The local slot that an instruction pops a value into. -/
def storedLocal? (i : Instruction) : Option Nat :=
  if Code.stloc0 ≤ i.opcode.code ∧ i.opcode.code ≤ Code.stloc3 then
    some (i.opcode.code - Code.stloc0).toNat
  else if i.is Code.stlocS || i.is Code.stloc then i.slot?
  else none

/-- The local slot that an instruction pushes the address of. -/
def addressedLocal? (i : Instruction) : Option Nat :=
  if i.is Code.ldlocaS || i.is Code.ldloca then i.slot? else none

/-! ### Text -/

/-- The label of an offset. A negative one wraps at 64 bits. -/
def label (offset : Int) : String := "IL_" ++ Text.upperHex 4 (offset % (UInt64.size : Int)).toNat

/-- The text of an operand, after a blank unless there is none. -/
def operandText (i : Instruction) : String :=
  match i.operand with
  | .none => ""
  | .int v | .long v => " " ++ toString v
  | .single _ | .double _ => " " ++ ((i.real?.map Decimal.plain.render).getD "")
  | .branch t => " " ++ label t
  | .token t => " " ++ t.display
  | .var n => " V_" ++ toString n
  | .switch ts => " (" ++ toString ts.length ++ " targets)"

/-- An instruction as a line of a listing. -/
def display (i : Instruction) : String :=
  label i.offset ++ ": " ++ i.opcode.mnemonic ++ i.operandText

end Instruction

end CilLint
