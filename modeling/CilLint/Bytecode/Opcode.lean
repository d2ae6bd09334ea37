/-!
# Opcodes

An opcode has a code, a mnemonic, a form of operand and an effect on control flow. Codes up to
`0xFF` are written as one byte; the others begin with the escape byte `0xFE` and are written as two.
-/

namespace CilLint

/-- How an operand is written after its opcode. All numbers are little-endian. -/
inductive OperandKind where
  | none
  /-- An argument or local slot in one byte. -/
  | shortVar
  /-- A signed number in one byte. -/
  | shortInt
  /-- A signed distance in one byte. -/
  | shortBranch
  /-- An argument or local slot in two bytes. -/
  | var
  /-- A signed number in four bytes. -/
  | int32
  /-- A floating-point number in four bytes. -/
  | float32
  /-- A signed distance in four bytes. -/
  | branch
  /-- A metadata token. -/
  | token
  /-- A signed number in eight bytes. -/
  | int64
  /-- A floating-point number in eight bytes. -/
  | float64
  /-- A count in four bytes, then that many signed distances in four bytes each. -/
  | switch
  deriving DecidableEq, Repr

namespace OperandKind

/-- The length of an operand in bytes; only switch tables have no fixed one. -/
def fixedLength? : OperandKind → Option Nat
  | .none => some 0
  | .shortVar | .shortInt | .shortBranch => some 1
  | .var => some 2
  | .int32 | .float32 | .branch | .token => some 4
  | .int64 | .float64 => some 8
  | .switch => Option.none

end OperandKind

/-- The effect of an opcode on control flow. -/
inductive Flow where
  | next
  | branch
  | conditional
  | call
  /-- Leaves the method, a handler or a filter. -/
  | leave
  /-- Throws an exception. -/
  | raise
  /-- Changes the meaning of the next instruction only. -/
  | modifier
  deriving DecidableEq, Repr

/-- One kind of instruction. -/
structure Opcode where
  code : UInt16
  mnemonic : String
  operand : OperandKind
  flow : Flow
  deriving DecidableEq, Repr

namespace Opcode

/-- The first byte of every opcode of two bytes. -/
def escapeByte : UInt8 := 0xFE

/-- The code of the opcode that is written as the escape byte and `second`. -/
def escapedCode (second : UInt8) : UInt16 := 0xFE00 ||| second.toUInt16

/-- The number of bytes of the opcode itself. -/
def size (o : Opcode) : Nat := if o.code > 0xFF then 2 else 1

/-- Whether control may go elsewhere than to the next instruction or a callee. -/
def isBranch (o : Opcode) : Bool := o.flow == .branch || o.flow == .conditional

/-- Whether control goes to a callee. -/
def isCall (o : Opcode) : Bool := o.flow == .call

end Opcode

/-! ### Codes that the analyses know -/

namespace Code

def nop : UInt16 := 0x00
def ldloc0 : UInt16 := 0x06
def ldloc3 : UInt16 := 0x09
def stloc0 : UInt16 := 0x0A
def stloc3 : UInt16 := 0x0D
def ldlocS : UInt16 := 0x11
def ldlocaS : UInt16 := 0x12
def stlocS : UInt16 := 0x13
def ldnull : UInt16 := 0x14
def ldcI4M1 : UInt16 := 0x15
def ldcR8 : UInt16 := 0x23
def jmp : UInt16 := 0x27
def call : UInt16 := 0x28
def ret : UInt16 := 0x2A
def brS : UInt16 := 0x2B
def br : UInt16 := 0x38
def callvirt : UInt16 := 0x6F
def ldstr : UInt16 := 0x72
def newobj : UInt16 := 0x73
def throw : UInt16 := 0x7A
def ldfld : UInt16 := 0x7B
def ldflda : UInt16 := 0x7C
def stfld : UInt16 := 0x7D
def ldsfld : UInt16 := 0x7E
def ldsflda : UInt16 := 0x7F
def stsfld : UInt16 := 0x80
def ldftn : UInt16 := 0xFE06
def ldvirtftn : UInt16 := 0xFE07
def ldloc : UInt16 := 0xFE0C
def ldloca : UInt16 := 0xFE0D
def stloc : UInt16 := 0xFE0E
def initobj : UInt16 := 0xFE15

end Code

end CilLint
