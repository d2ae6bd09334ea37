import CilLint.Bytecode.Profile
import CilLint.Proofs.Tiling

/-!
# Instructions read from another offset

Bytes mean the same wherever they stand in a body, but for the offsets. `Instruction.shift` adds a
distance to all offsets of an instruction: where it starts and stops, and where it branches to. Bytes
that are read further on give the same instructions, shifted, and the same fault, shifted
(`decodeFrom_add`).

What a scan of a body looks at does not change if all instructions are shifted together, since it
compares offsets only with one another. So `significant` commutes with shifting
(`significant_map_shift`).

Only the opcode and the slot of an instruction matter to its shape. `Alike` relates instructions that
agree in both, and the three tests on significant instructions do not tell such instructions apart.
-/

namespace CilLint

/-! ### Shifted instructions -/

/-- An instruction whose offsets and targets are larger by a distance. -/
def Instruction.shift (distance : Nat) (i : Instruction) : Instruction where
  offset := i.offset + distance
  opcode := i.opcode
  operand := i.operand.shift distance
  stop := i.stop + distance

/-- A fault that is found further on. What was needed and what was left does not change. -/
def DecodeError.shift (distance : Nat) : DecodeError → DecodeError
  | .unknownOpcode offset code => .unknownOpcode (offset + distance) code
  | .truncated offset needed available => .truncated (offset + distance) needed available

/-- All that was decoded, further on. -/
def Decoded.shift (distance : Nat) (d : Decoded) : Decoded where
  instructions := d.instructions.map (Instruction.shift distance)
  error := d.error.map (DecodeError.shift distance)

namespace Instruction

variable (distance : Nat) (i : Instruction)

@[simp] theorem opcode_shift : (i.shift distance).opcode = i.opcode := rfl

@[simp] theorem is_shift (code : UInt16) : (i.shift distance).is code = i.is code := rfl

/-- A slot is a number of a local and has nothing to do with offsets. -/
@[simp] theorem slot?_shift : (i.shift distance).slot? = i.slot? := by
  unfold slot? shift
  cases i.operand <;> rfl

/-- Targets are positions in the body, so they move along. -/
theorem target?_shift : (i.shift distance).target? = i.target?.map (· + (distance : Int)) := by
  unfold target? shift
  cases i.operand <;> rfl

/-- Neither the opcode nor the slot changes, so a store stays a store into the same local, and a load
one of the same local. -/
@[simp] theorem storedLocal?_shift : (i.shift distance).storedLocal? = i.storedLocal? := by
  simp only [storedLocal?, opcode_shift, is_shift, slot?_shift]

@[simp] theorem loadedLocal?_shift : (i.shift distance).loadedLocal? = i.loadedLocal? := by
  simp only [loadedLocal?, opcode_shift, is_shift, slot?_shift]

/-- The end of an instruction and its targets move together, so their distances stay. Bytes have
nothing but distances in them. -/
private theorem distance_eq :
    (distance : Int) = ((i.stop + distance : Nat) : Int) - (i.stop : Int) := by
  omega

/-- **A shifted instruction has the same bytes.** A branch is written as the distance from its end to
its target, and both ends of that distance are shifted. -/
@[simp] theorem encode_shift : (i.shift distance).encode = i.encode := by
  have hoperand := Operand.encode_shift i.opcode.operand i.stop (i.stop + distance) i.operand
  -- `Operand.encode_shift` is about two ends of an instruction; here they lie `distance` apart.
  rw [← distance_eq] at hoperand
  exact congrArg (i.opcode.encode ++ ·) hoperand

theorem length_shift : (i.shift distance).length = i.length :=
  congrArg (i.opcode.size + ·) (Operand.size_shift _ _ _)

variable {i}

/-- A shifted instruction is well-formed. Branches still fit, since what has to fit is their
distance. -/
theorem WellFormed.shift (h : i.WellFormed) : (i.shift distance).WellFormed where
  assigned := h.assigned
  fits := by
    change (i.operand.shift distance).Fits (i.stop + distance) i.opcode.operand
    rw [distance_eq distance i]
    exact Operand.fits_shift h.fits
  stop_eq := by
    rw [length_shift]
    change i.stop + distance = i.offset + distance + i.length
    have hstop := h.stop_eq
    omega

end Instruction

/-! ### Shifted bodies -/

section Decoding

variable (offset distance : Nat)

/-- What opcode the bytes begin with does not depend on where they stand. If they begin with none, the
fault tells the offset, and that is shifted. -/
theorem readOpcode_add (bytes : List UInt8) :
    readOpcode (offset + distance) bytes
      = (readOpcode offset bytes).mapError (DecodeError.shift distance) := by
  have hknown : ∀ code, readOpcode.known (offset + distance) code
      = (readOpcode.known offset code).mapError (DecodeError.shift distance) := by
    intro code
    unfold readOpcode.known
    cases Opcode.ofCode? code <;> rfl
  -- One case for each way to leave `readOpcode`: no byte, an escape alone, an escape with a second
  -- byte, and an opcode of one byte.
  match bytes with
  | [] => rfl
  | first :: rest =>
    by_cases hescape : first = Opcode.escapeByte
    · subst hescape
      match rest with
      | [] => rfl
      | second :: rest => rw [readOpcode_escape, readOpcode_escape, hknown]
    · rw [readOpcode_short _ hescape, readOpcode_short _ hescape, hknown]

/-- Nor does the length of an operand. For a switch it is read off the bytes, and the offset is not
among them. -/
theorem operandLength_add (kind : OperandKind) (bytes : List UInt8) :
    operandLength (offset + distance) kind bytes
      = (operandLength offset kind bytes).mapError (DecodeError.shift distance) := by
  unfold operandLength
  cases kind.fixedLength? with
  | some n =>
    dsimp only
    split <;> rfl
  -- A switch: first its number of targets and then the targets may be cut off.
  | none =>
    dsimp only
    split
    · split <;> rfl
    · rfl

/-- A fault at an offset is the same fault further on. That the other case, an instruction, can be
moved follows from its bytes and is not shown here: see `decodeFrom_add`. -/
theorem decodeOne_add_of_error {bytes : List UInt8} {e : DecodeError}
    (h : decodeOne offset bytes = .error e) :
    decodeOne (offset + distance) bytes = .error (e.shift distance) := by
  simp only [decodeOne, bind, Except.bind, pure, Except.pure] at h ⊢
  rw [readOpcode_add]
  cases hread : readOpcode offset bytes with
  | error e' =>
    rw [hread] at h
    rw [← Except.error.inj h]
    rfl
  | ok o =>
    rw [hread] at h
    dsimp only [Except.mapError] at h ⊢
    rw [operandLength_add]
    cases hlength : operandLength offset o.operand (bytes.drop o.size) with
    | error e' =>
      rw [hlength] at h
      rw [← Except.error.inj h]
      rfl
    -- With an opcode and the length of its operand there is no fault.
    | ok n =>
      rw [hlength] at h
      cases h

/-- **Bytes that are read further on** give the same instructions and the same fault, shifted. An
instruction of the run has the same bytes when it is shifted (`Instruction.encode_shift`), and what
decodes to an instruction is exactly its bytes, so the shifted one is what is decoded there. -/
theorem decodeFrom_add (bytes : List UInt8) :
    decodeFrom (offset + distance) bytes = (decodeFrom offset bytes).shift distance := by
  have hrun := decodes_decodeFrom offset bytes
  generalize decodeFrom offset bytes = d at hrun ⊢
  -- The induction is on the run from `offset`, which the other run follows step by step.
  induction hrun with
  | done offset => exact decodeFrom_nil _
  | fault hne h => exact decodeFrom_error hne (decodeOne_add_of_error _ _ h)
  | @step i rest d h hrest ih =>
    -- The shifted instruction is decoded from its own bytes, which are those of `i`.
    have hdecode := decodeFrom_encode_append (h.shift distance) rest
    rw [Instruction.encode_shift] at hdecode
    change decodeFrom (i.offset + distance) (i.encode ++ rest) = _ at hdecode
    rw [hdecode, show (i.shift distance).stop = i.stop + distance from rfl, ih]
    rfl

end Decoding

/-! ### Scanning shifted instructions -/

section Scanning

variable (distance : Nat)

/-- A shuttle stays a shuttle. It is the one test of the scan that looks at an offset, and it compares
it with a target, which moves in step. -/
theorem isShuttle_map_shift (is : List Instruction) :
    isShuttle (is.map (Instruction.shift distance)) = isShuttle is := by
  match is with
  | [] | [_] | [_, _] => rfl
  | store :: jump :: load :: rest =>
    -- The target of the jump and the offset of the load are shifted together.
    have htarget : ((jump.shift distance).target? == some (((load.shift distance).offset : Nat) : Int))
        = (jump.target? == some (load.offset : Int)) := by
      rw [Bool.eq_iff_iff, beq_iff_eq, beq_iff_eq, Instruction.target?_shift]
      cases jump.target? with
      | none => simp
      | some target =>
        simp only [Option.map_some, Option.some.injEq, Instruction.shift]
        omega
    simp only [List.map_cons, isShuttle, Instruction.storedLocal?_shift, Instruction.is_shift,
      Instruction.loadedLocal?_shift, htarget]

/-- **Scanning commutes with shifting.** The induction is that of `significant`: a no-operation is
passed over, a shuttle is passed over as a whole, and any other instruction is kept. -/
theorem significant_map_shift (is : List Instruction) :
    significant (is.map (Instruction.shift distance))
      = (significant is).map (Instruction.shift distance) := by
  induction is using significant.induct with
  | case1 => simp [significant]
  | case2 i rest hnop ih =>
    rw [List.map_cons, significant, significant, Instruction.is_shift, if_pos hnop, if_pos hnop, ih]
  | case3 i rest hnop hshuttle ih =>
    rw [List.map_cons, significant, significant, Instruction.is_shift, if_neg hnop, if_neg hnop,
      ← List.map_cons, isShuttle_map_shift, if_pos hshuttle, if_pos hshuttle, ← List.map_drop, ih]
  | case4 i rest hnop hshuttle ih =>
    rw [List.map_cons, significant, significant, Instruction.is_shift, if_neg hnop, if_neg hnop,
      ← List.map_cons, isShuttle_map_shift, if_neg hshuttle, if_neg hshuttle, ih, List.map_cons]

end Scanning

/-! ### Instructions of one shape -/

/-- Instructions with the same opcode and the same slot. -/
structure Instruction.Alike (i j : Instruction) : Prop where
  opcode_eq : i.opcode = j.opcode
  slot_eq : i.slot? = j.slot?

namespace Instruction

variable {i j : Instruction}

/-- Every instruction is like itself. With `alike_shift` this covers all that padding does to the
instructions around it: some stay where they are, and the others are shifted. -/
theorem Alike.refl (i : Instruction) : i.Alike i := ⟨rfl, rfl⟩

/-- Instructions that come from the same one by shifting are alike. -/
theorem alike_shift (distance distance' : Nat) (i : Instruction) :
    (i.shift distance).Alike (i.shift distance') :=
  ⟨rfl, by rw [slot?_shift, slot?_shift]⟩

/-- Tests on codes do not tell alike instructions apart. The next three lemmas are about tests that
are made of such a test and of the slot. -/
theorem Alike.is_eq (h : i.Alike j) (code : UInt16) : i.is code = j.is code := by
  rw [is, is, h.opcode_eq]

/-- A literal is known by its code; the number it loads plays no role. -/
theorem Alike.isLiteral_eq (h : i.Alike j) : i.isLiteral = j.isLiteral := by
  rw [isLiteral, isLiteral, h.is_eq, h.opcode_eq]

/-- Which local is loaded depends on the code, or on the slot if the code does not say. It is the same
for addresses of locals. -/
theorem Alike.loadedLocal?_eq (h : i.Alike j) : i.loadedLocal? = j.loadedLocal? := by
  rw [loadedLocal?, loadedLocal?, h.is_eq, h.is_eq, h.opcode_eq, h.slot_eq]

theorem Alike.addressedLocal?_eq (h : i.Alike j) : i.addressedLocal? = j.addressedLocal? := by
  rw [addressedLocal?, addressedLocal?, h.is_eq, h.is_eq, h.slot_eq]

end Instruction

section Shapes

variable {is js : List Instruction}

/-- The first of the three tests on significant instructions. Each test looks at a list of a certain
length, so the cases are the lengths: in all others both sides are false at once. -/
theorem doesNothing_congr (h : List.Forall₂ Instruction.Alike is js) :
    doesNothing is = doesNothing js := by
  rcases h with _ | ⟨hi, _ | ⟨_, _⟩⟩
  · rfl
  · rw [doesNothing, doesNothing, hi.opcode_eq]
  · rfl

/-- The second test looks at two instructions. -/
theorem returnsLiteral_congr (h : List.Forall₂ Instruction.Alike is js) :
    returnsLiteral is = returnsLiteral js := by
  rcases h with _ | ⟨hload, _ | ⟨hret, _ | ⟨_, _⟩⟩⟩
  · rfl
  · rfl
  · rw [returnsLiteral, returnsLiteral, hload.isLiteral_eq, hret.is_eq]
  · rfl

/-- The third test looks at two instructions or at four. With four of them the slots have to be the
same, and alike instructions have the same slots. -/
theorem returnsDefault_congr (h : List.Forall₂ Instruction.Alike is js) :
    returnsDefault is = returnsDefault js := by
  rcases h with _ | ⟨hfirst, _ | ⟨hsecond, _ | ⟨hthird, _ | ⟨hfourth, _ | ⟨_, _⟩⟩⟩⟩⟩
  · rfl
  · rfl
  -- Two instructions: null is loaded and returned.
  · rw [returnsDefault, returnsDefault, hfirst.is_eq, hsecond.is_eq]
  · rfl
  -- Four: a local is cleared through its address, loaded and returned.
  · rw [returnsDefault, returnsDefault, hfirst.addressedLocal?_eq, hsecond.is_eq,
      hthird.loadedLocal?_eq, hfourth.is_eq]
  · rfl

end Shapes

end CilLint
