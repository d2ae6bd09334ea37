import CilLint.Bytecode.Instruction

/-!
# Decoding

A body is a sequence of instructions without gaps. Decoding reads one instruction after another and
stops at the end of the body or at the first fault: a code that is not assigned, or an instruction
that the body ends in the middle of. What was read before a fault is kept.

The length of an operand depends only on its kind and, for a switch, on the count it begins with. So
reading an instruction first finds its length and then the meaning of its bytes.
-/

namespace CilLint

/-- Why a body could not be decoded further. -/
inductive DecodeError where
  | unknownOpcode (offset : Nat) (code : UInt16)
  /-- `needed` bytes were wanted, and only `available` were left. -/
  | truncated (offset needed available : Nat)
  deriving DecidableEq, Repr

namespace DecodeError

/-- Where the instruction starts that could not be decoded. -/
def offset : DecodeError → Nat
  | .unknownOpcode o _ => o
  | .truncated o _ _ => o

/-- The text of a fault. -/
def message : DecodeError → String
  | .unknownOpcode o code =>
    "unknown opcode 0x" ++ Text.upperHex 2 code.toNat ++ " at offset " ++ toString o
  | .truncated o needed available =>
    "truncated instruction at offset " ++ toString o ++ ": needed " ++ toString needed ++
      " bytes, " ++ toString available ++ " available"

end DecodeError

/-! ### Numbers -/

/-- The number with the given little-endian bytes. -/
def littleEndian : List UInt8 → Nat
  | [] => 0
  | b :: bs => b.toNat + 256 * littleEndian bs

/-- The signed number with the given little-endian bytes, in two's complement. -/
def signedLittleEndian (bytes : List UInt8) : Int :=
  Int.bmod (littleEndian bytes) (Nat.pow 256 bytes.length)

/-- The signed numbers of four bytes each that bytes consist of. -/
def signedWords : List UInt8 → List Int
  | a :: b :: c :: d :: rest => signedLittleEndian [a, b, c, d] :: signedWords rest
  | _ => []

/-! ### One instruction -/

/-- The opcode at the start of `bytes`, which begin at `offset`. -/
def readOpcode (offset : Nat) : List UInt8 → Except DecodeError Opcode
  | [] => .error (.truncated offset 1 0)
  | first :: rest =>
    if first = Opcode.escapeByte then
      match rest with
      | [] => .error (.truncated offset 1 0)
      | second :: _ => known (Opcode.escapedCode second)
    else known first.toUInt16
where
  /-- The opcode with a code, if it is assigned. -/
  known (code : UInt16) : Except DecodeError Opcode :=
    match Opcode.ofCode? code with
    | some o => .ok o
    | none => .error (.unknownOpcode offset code)

/-- Whether there are at least so many bytes. No more of them are looked at. -/
def hasBytes : Nat → List UInt8 → Bool
  | 0, _ => true
  | _ + 1, [] => false
  | n + 1, _ :: bytes => hasBytes n bytes

@[simp] theorem hasBytes_eq_true_iff {n : Nat} {bytes : List UInt8} :
    hasBytes n bytes = true ↔ n ≤ bytes.length := by
  induction n generalizing bytes with
  | zero => simp [hasBytes]
  | succ n ih => cases bytes <;> simp [hasBytes, ih]

/-- The length of the operand at the start of `bytes`. Its instruction starts at `offset`. -/
def operandLength (offset : Nat) (kind : OperandKind) (bytes : List UInt8) :
    Except DecodeError Nat :=
  match kind.fixedLength? with
  | some n =>
    if hasBytes n bytes then .ok n else .error (.truncated offset n bytes.length)
  | none =>
    if hasBytes 4 bytes then
      let table := 4 * littleEndian (bytes.take 4)
      if hasBytes (4 + table) bytes then .ok (4 + table)
      else .error (.truncated offset table (bytes.length - 4))
    else .error (.truncated offset 4 bytes.length)

/-- The operand that is written as `bytes` in an instruction that stops at `stop`. Distances are from
there. -/
def Operand.ofBytes (kind : OperandKind) (stop : Nat) (bytes : List UInt8) : Operand :=
  match kind with
  | .none => .none
  | .shortVar | .var => .var (littleEndian bytes)
  | .shortInt | .int32 => .int (signedLittleEndian bytes)
  | .int64 => .long (signedLittleEndian bytes)
  | .shortBranch | .branch => .branch (stop + signedLittleEndian bytes)
  | .float32 => .single (UInt32.ofNat (littleEndian bytes))
  | .float64 => .double (UInt64.ofNat (littleEndian bytes))
  | .token => .token ⟨UInt32.ofNat (littleEndian bytes)⟩
  | .switch => .switch ((signedWords (bytes.drop 4)).map fun distance => stop + distance)

/-- The instruction at the start of `bytes`, which begin at `offset`. -/
def decodeOne (offset : Nat) (bytes : List UInt8) : Except DecodeError Instruction := do
  let opcode ← readOpcode offset bytes
  let rest := bytes.drop opcode.size
  let length ← operandLength offset opcode.operand rest
  let stop := offset + opcode.size + length
  return ⟨offset, opcode, .ofBytes opcode.operand stop (rest.take length), stop⟩

theorem Opcode.size_pos (o : Opcode) : 0 < o.size := by
  unfold Opcode.size; split <;> decide

theorem offset_lt_stop {offset : Nat} {bytes : List UInt8} {i : Instruction}
    (h : decodeOne offset bytes = .ok i) : offset < i.stop := by
  simp only [decodeOne, bind, Except.bind, pure, Except.pure] at h
  split at h
  · contradiction
  · rename_i opcode _
    split at h
    · contradiction
    · cases h
      have := opcode.size_pos
      simp only
      omega

/-! ### A whole body -/

/-- What a body decodes to: instructions, and the fault they end with, if any. -/
structure Decoded where
  instructions : List Instruction
  error : Option DecodeError
  deriving DecidableEq, Repr

/-- Decodes the rest of a body, which begins at `offset`. -/
def decodeFrom (offset : Nat) (bytes : List UInt8) : Decoded :=
  if _hne : bytes = [] then ⟨[], none⟩
  else
    match _h : decodeOne offset bytes with
    | .error e => ⟨[], some e⟩
    | .ok i =>
      let rest := decodeFrom i.stop (bytes.drop (i.stop - offset))
      ⟨i :: rest.instructions, rest.error⟩
termination_by bytes.length
decreasing_by
  have := offset_lt_stop _h
  have := List.length_pos_iff.2 _hne
  simp only [List.length_drop]
  omega

/-- **Decodes a body** as far as possible. -/
def decode (body : List UInt8) : Decoded := decodeFrom 0 body

namespace Decoded

/-- The instructions of a body that decodes to its end, or the fault. -/
def all (d : Decoded) : Except DecodeError (List Instruction) :=
  match d.error with
  | none => .ok d.instructions
  | some e => .error e

/-- The instructions and then the fault, one after another. -/
def items (d : Decoded) : List (Except DecodeError Instruction) :=
  d.instructions.map .ok ++ d.error.toList.map .error

end Decoded

end CilLint
