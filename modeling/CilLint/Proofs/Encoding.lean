import CilLint.Proofs.LittleEndian
import Mathlib.Data.List.Nodup

/-!
# Writing instructions

The inverse of reading one instruction. `Instruction.encode` writes the code of the opcode and then
the operand, with branch and switch targets made relative to the end of the instruction again.

Reading and writing are tied together by one statement, `decodeOne_eq_ok_iff`: an instruction is
read at the start of some bytes exactly if it starts there, is well formed and is written as the
first of these bytes. It is assembled from the two halves of an instruction:

* `readOpcode_eq_ok_iff` — an opcode is read exactly if it is assigned and written first. The codes
  of the table ascend (`Opcode.isChain_table`), so that no opcode hides another.
* `operandLength_eq_ok_iff` — an operand is as long as its kind admits; on bytes of such a length
  `Operand.ofBytes` and `Operand.encode` are inverse to each other.

`decodeOne_eq_error` says of what cannot be read where the fault lies, and that a truncated read
wanted more bytes than there were.
-/

namespace CilLint

/-! ### Opcodes -/

namespace Opcode

/-- The bytes of an opcode. -/
def encode (o : Opcode) : List UInt8 :=
  if o.code > 0xFF then [escapeByte, o.code.toUInt8] else [o.code.toUInt8]

@[simp] theorem length_encode (o : Opcode) : o.encode.length = o.size := by
  unfold encode size
  split <;> rfl

/-- The codes of the table ascend. This is checked by going through the table once, and no two codes
are the same because of it. -/
theorem isChain_table : (table.map code).IsChain (· < ·) := by decide +kernel

theorem nodup_codes : (table.map code).Nodup :=
  (List.isChain_iff_pairwise.mp isChain_table).imp fun h => UInt16.ne_of_lt h

/-- An opcode is found by its code, and by no other one. The search takes the first opcode that
matches, and there is no second one. -/
theorem ofCode?_eq_some_iff {code : UInt16} {o : Opcode} :
    ofCode? code = some o ↔ o ∈ table ∧ o.code = code := by
  refine ⟨?_, ?_⟩
  · intro h
    have hcode := List.find?_some h
    exact ⟨List.mem_of_find?_eq_some h, by simpa using hcode⟩
  · rintro ⟨hmem, rfl⟩
    cases hfind : ofCode? o.code with
    | none =>
      have hne : ¬ (o.code == o.code) = true := List.find?_eq_none.mp hfind o hmem
      exact absurd (beq_self_eq_true o.code) hne
    | some p =>
      -- What is found has the same code, so it is the same opcode.
      have hcode : p.code = o.code := by simpa using List.find?_some hfind
      rw [List.inj_on_of_nodup_map nodup_codes (List.mem_of_find?_eq_some hfind) hmem hcode]

theorem escapedCode_gt (second : UInt8) : escapedCode second > 0xFF := by
  have hor : (escapedCode second).toNat = 0xFE00 ||| second.toNat := by
    rw [escapedCode, UInt16.toNat_or, UInt8.toNat_toUInt16]
    rfl
  have hle : 0xFE00 ≤ 0xFE00 ||| second.toNat := Nat.left_le_or
  show (0xFF : UInt16).toNat < (escapedCode second).toNat
  rw [hor]
  exact Nat.lt_of_lt_of_le (by decide) hle

/-- The lower byte of such a code is the byte that follows the escape byte. -/
theorem toUInt8_escapedCode (second : UInt8) : (escapedCode second).toUInt8 = second := by
  have hlt : second.toNat < 2 ^ 8 := second.toNat_lt
  apply UInt8.toNat.inj
  rw [UInt16.toNat_toUInt8, escapedCode, UInt16.toNat_or, UInt8.toNat_toUInt16]
  -- The two bytes of the code do not overlap, so the disjunction is a sum.
  change (2 ^ 8 * 0xFE ||| second.toNat) % 2 ^ 8 = second.toNat
  rw [← Nat.two_pow_add_eq_or_of_lt hlt]
  omega

/-- The code of a short opcode is its only byte, which is not the escape byte. The code of a long one
is that of the escape byte and its second byte. So the first byte tells which of the two sorts it
is. -/
theorem code_of_mem_table : ∀ o ∈ table,
    if o.code > 0xFF then escapedCode o.code.toUInt8 = o.code
    else o.code.toUInt8 ≠ escapeByte ∧ o.code.toUInt8.toUInt16 = o.code := by
  decide +kernel

end Opcode

@[simp] theorem readOpcode_nil (offset : Nat) :
    readOpcode offset [] = .error (.truncated offset 1 0) := rfl

@[simp] theorem readOpcode_escape_nil (offset : Nat) :
    readOpcode offset [Opcode.escapeByte] = .error (.truncated offset 1 0) := rfl

/-- After the escape byte the next one decides, and any other byte decides by itself. -/
theorem readOpcode_escape (offset : Nat) (second : UInt8) (rest : List UInt8) :
    readOpcode offset (Opcode.escapeByte :: second :: rest)
      = readOpcode.known offset (Opcode.escapedCode second) := rfl

theorem readOpcode_short (offset : Nat) {first : UInt8} (h : first ≠ Opcode.escapeByte)
    (rest : List UInt8) :
    readOpcode offset (first :: rest) = readOpcode.known offset first.toUInt16 :=
  if_neg h

/-- What was put together is an opcode if it is in the table. The offset is only for the fault. -/
theorem readOpcode_known_eq_ok_iff {offset : Nat} {code : UInt16} {o : Opcode} :
    readOpcode.known offset code = .ok o ↔ o ∈ Opcode.table ∧ o.code = code := by
  rw [← Opcode.ofCode?_eq_some_iff, readOpcode.known]
  cases Opcode.ofCode? code <;> simp

/-- **An opcode is read exactly if it is assigned and its bytes come first.** What follows them does
not matter. -/
theorem readOpcode_eq_ok_iff {offset : Nat} {bytes : List UInt8} {o : Opcode} :
    readOpcode offset bytes = .ok o ↔ o ∈ Opcode.table ∧ o.encode <+: bytes := by
  refine ⟨?_, ?_⟩
  · -- What is read: nothing, one byte, or the escape byte and another one.
    intro h
    match bytes with
    | [] => simp at h
    | first :: rest =>
      by_cases hescape : first = Opcode.escapeByte
      · subst hescape
        match rest with
        | [] => simp at h
        | second :: rest =>
          rw [readOpcode_escape] at h
          obtain ⟨hmem, hcode⟩ := readOpcode_known_eq_ok_iff.mp h
          refine ⟨hmem, ?_⟩
          rw [Opcode.encode, hcode, if_pos (Opcode.escapedCode_gt second),
            Opcode.toUInt8_escapedCode]
          exact List.prefix_append [_, _] rest
      · rw [readOpcode_short offset hescape] at h
        obtain ⟨hmem, hcode⟩ := readOpcode_known_eq_ok_iff.mp h
        -- One byte makes a short code, so it is written as one byte.
        have hshort : ¬ first.toUInt16 > 0xFF := by
          rw [gt_iff_lt, UInt16.lt_iff_toNat_lt, UInt8.toNat_toUInt16]
          exact Nat.not_lt.mpr (Nat.le_of_lt_succ first.toNat_lt)
        refine ⟨hmem, ?_⟩
        rw [Opcode.encode, hcode, if_neg hshort, UInt8.toUInt8_toUInt16]
        exact List.prefix_append [_] rest
  · -- What is written is read by the branch that its first byte chooses.
    rintro ⟨hmem, rest, rfl⟩
    have hcode := Opcode.code_of_mem_table o hmem
    unfold Opcode.encode
    split at hcode
    · next hlong =>
      rw [if_pos hlong]
      exact (readOpcode_escape offset _ rest).trans
        (readOpcode_known_eq_ok_iff.mpr ⟨hmem, hcode.symm⟩)
    · next hshort =>
      rw [if_neg hshort]
      exact (readOpcode_short offset hcode.1 rest).trans
        (readOpcode_known_eq_ok_iff.mpr ⟨hmem, hcode.2.symm⟩)

/-- What is at the start of some bytes is no opcode if it is unassigned, or if nothing follows the
escape byte. -/
theorem readOpcode_eq_error {offset : Nat} {bytes : List UInt8} {e : DecodeError}
    (hne : bytes ≠ []) (h : readOpcode offset bytes = .error e) :
    (∃ code, e = .unknownOpcode offset code) ∨
      e = .truncated offset 1 0 ∧ bytes = [Opcode.escapeByte] := by
  -- A code that was put together can only fail by being unassigned.
  have hknown : ∀ code, readOpcode.known offset code = .error e →
      e = .unknownOpcode offset code := by
    intro code hcode
    unfold readOpcode.known at hcode
    split at hcode
    · simp at hcode
    · exact (Except.error.inj hcode).symm
  match bytes with
  | [] => exact absurd rfl hne
  | first :: rest =>
    by_cases hescape : first = Opcode.escapeByte
    · subst hescape
      match rest with
      | [] =>
        rw [readOpcode_escape_nil] at h
        exact .inr ⟨(Except.error.inj h).symm, rfl⟩
      | second :: rest =>
        rw [readOpcode_escape] at h
        exact .inl ⟨_, hknown _ h⟩
    · rw [readOpcode_short offset hescape] at h
      exact .inl ⟨_, hknown _ h⟩

/-! ### Operands -/

/-- Bytes that are as long as an operand of a kind. The length of a switch table follows from the
count at its start. -/
def OperandKind.Admits (kind : OperandKind) (bytes : List UInt8) : Prop :=
  match kind.fixedLength? with
  | some n => bytes.length = n
  | .none => bytes.length = 4 + 4 * littleEndian (bytes.take 4)

/-- The length of an operand is found exactly if that many bytes are there and they are admitted. So
there is at most one such length, though a switch table has to be looked at to know it. -/
theorem operandLength_eq_ok_iff {offset n : Nat} {kind : OperandKind} {bytes : List UInt8} :
    operandLength offset kind bytes = .ok n ↔ n ≤ bytes.length ∧ kind.Admits (bytes.take n) := by
  unfold operandLength OperandKind.Admits
  cases kind.fixedLength? with
  -- The length is known in advance, so this is only a matter of how many bytes there are.
  | some m =>
    simp only [hasBytes_eq_true_iff, List.length_take]
    split
    · rw [Except.ok.injEq]
      omega
    · simp only [reduceCtorEq, false_iff]
      omega
  | none =>
    -- A length that is admitted is at least four, so the count is the same before and after the cut.
    simp only [hasBytes_eq_true_iff, List.length_take, List.take_take]
    split
    · split
      · rw [Except.ok.injEq]
        refine ⟨?_, ?_⟩
        · rintro rfl
          refine ⟨by omega, ?_⟩
          rw [Nat.min_eq_left (Nat.le_add_right 4 _)]
          omega
        · rintro ⟨hle, hadmits⟩
          have hfour : 4 ≤ n := by omega
          rw [Nat.min_eq_left hfour] at hadmits
          omega
      · simp only [reduceCtorEq, false_iff, not_and]
        intro hle hadmits
        have hfour : 4 ≤ n := by omega
        rw [Nat.min_eq_left hfour] at hadmits
        omega
    · simp only [reduceCtorEq, false_iff]
      omega

/-- An operand that is not found was cut short: after `used` bytes a read wanted more than there
were. -/
theorem operandLength_eq_error {offset : Nat} {kind : OperandKind} {bytes : List UInt8}
    {e : DecodeError} (h : operandLength offset kind bytes = .error e) :
    ∃ used needed, used ≤ bytes.length ∧ bytes.length - used < needed ∧
      e = .truncated offset needed (bytes.length - used) := by
  unfold operandLength at h
  split at h
  · split at h
    · simp at h
    · next n _ hshort =>
      rw [hasBytes_eq_true_iff] at hshort
      exact ⟨0, n, Nat.zero_le _, by omega, (Except.error.inj h).symm⟩
  · dsimp only at h
    split at h
    -- The count of a switch table was read, and then there were too few targets.
    · next hcount =>
      rw [hasBytes_eq_true_iff] at hcount
      split at h
      · simp at h
      · next hshort =>
        rw [hasBytes_eq_true_iff] at hshort
        exact ⟨4, _, hcount, by omega, (Except.error.inj h).symm⟩
    -- The count itself was cut.
    · next hshort =>
      rw [hasBytes_eq_true_iff] at hshort
      exact ⟨0, 4, Nat.zero_le _, by omega, (Except.error.inj h).symm⟩

namespace Operand

/-- Whether an operand is one of a kind, with all its numbers in range. Targets are in range if
their distance from `stop` is. -/
def Fits (stop : Nat) : OperandKind → Operand → Prop
  | .none, .none => True
  | .shortVar, .var n => n < 256
  | .var, .var n => n < 65536
  | .shortInt, .int v => Signed 1 v
  | .int32, .int v => Signed 4 v
  | .int64, .long v => Signed 8 v
  | .shortBranch, .branch t => Signed 1 (t - stop)
  | .branch, .branch t => Signed 4 (t - stop)
  | .float32, .single _ => True
  | .float64, .double _ => True
  | .token, .token _ => True
  | .switch, .switch ts => ts.length < 2 ^ 32 ∧ ∀ t ∈ ts, Signed 4 (t - stop)
  | _, _ => False

/-- The number of bytes of an operand of a kind. -/
def size (kind : OperandKind) : Operand → Nat
  | .switch ts => 4 + 4 * ts.length
  | _ => kind.fixedLength?.getD 0

/-- The bytes of an operand of a kind in an instruction that stops at `stop`. -/
def encode (stop : Nat) (kind : OperandKind) : Operand → List UInt8
  | .none => []
  | .int v | .long v => signedBytes (kind.fixedLength?.getD 0) v
  | .single bits => leBytes 4 bits.toNat
  | .double bits => leBytes 8 bits.toNat
  | .branch t => signedBytes (kind.fixedLength?.getD 0) (t - stop)
  | .token t => leBytes 4 t.value.toNat
  | .var n => leBytes (kind.fixedLength?.getD 0) n
  | .switch ts => leBytes 4 ts.length ++ (ts.map fun t : Int => t - stop).flatMap (signedBytes 4)

/-- The size of an operand that fits is that of its kind, or that of a switch table. -/
theorem Fits.size_eq {stop : Nat} {kind : OperandKind} {o : Operand} (h : o.Fits stop kind) :
    kind.fixedLength? = some (o.size kind) ∨
      ∃ targets, kind.fixedLength? = .none ∧ o = .switch targets ∧
        o.size kind = 4 + 4 * targets.length := by
  unfold Fits at h
  split at h
  case h_12 targets => exact .inr ⟨targets, rfl, rfl, rfl⟩
  case h_13 => exact h.elim
  all_goals exact .inl rfl

theorem Fits.length_lt {stop : Nat} {kind : OperandKind} {targets : List Int}
    (h : (switch targets).Fits stop kind) : targets.length < 256 ^ 4 := by
  cases kind with
  | switch => exact h.1
  | _ => exact h.elim

/-- **An operand that fits is read back.** There is a case for each kind, in the order of `Fits`, and
each is one of the round trips of numbers. Targets are made relative first, which taking the sum
undoes. -/
theorem ofBytes_encode {stop : Nat} {kind : OperandKind} {o : Operand} (h : o.Fits stop kind) :
    ofBytes kind stop (o.encode stop kind) = o := by
  unfold Fits at h
  split at h
  · rfl
  · exact congrArg var (littleEndian_leBytes (w := 1) h)
  · exact congrArg var (littleEndian_leBytes (w := 2) h)
  · exact congrArg int (signedLittleEndian_signedBytes (by decide) h)
  · exact congrArg int (signedLittleEndian_signedBytes (by decide) h)
  · exact congrArg long (signedLittleEndian_signedBytes (by decide) h)
  · next t =>
    have hread : signedLittleEndian (signedBytes 1 (t - stop)) = t - stop :=
      signedLittleEndian_signedBytes (by decide) h
    change branch (stop + signedLittleEndian (signedBytes 1 (t - stop))) = branch t
    rw [hread, add_sub_cancel]
  · next t =>
    have hread : signedLittleEndian (signedBytes 4 (t - stop)) = t - stop :=
      signedLittleEndian_signedBytes (by decide) h
    change branch (stop + signedLittleEndian (signedBytes 4 (t - stop))) = branch t
    rw [hread, add_sub_cancel]
  · next bits =>
    change single (UInt32.ofNat (littleEndian (leBytes 4 bits.toNat))) = single bits
    rw [littleEndian_leBytes (w := 4) bits.toNat_lt, UInt32.ofNat_toNat]
  · next bits =>
    change double (UInt64.ofNat (littleEndian (leBytes 8 bits.toNat))) = double bits
    rw [littleEndian_leBytes (w := 8) bits.toNat_lt, UInt64.ofNat_toNat]
  · next t =>
    change token ⟨UInt32.ofNat (littleEndian (leBytes 4 t.value.toNat))⟩ = token t
    rw [littleEndian_leBytes (w := 4) t.value.toNat_lt, UInt32.ofNat_toNat]
  -- A switch: behind the count there are the distances of its targets.
  · next ts =>
    obtain ⟨-, hrange⟩ := h
    have hwords : signedWords ((ts.map fun t => t - (stop : Int)).flatMap (signedBytes 4))
        = ts.map fun t => t - (stop : Int) := by
      apply signedWords_flatMap
      intro v hv
      obtain ⟨t, ht, rfl⟩ := List.mem_map.mp hv
      exact hrange t ht
    change switch ((signedWords ((leBytes 4 ts.length ++ _).drop 4)).map _) = switch ts
    rw [List.drop_left' (length_leBytes 4 _), hwords, List.map_map]
    congr 1
    exact (List.map_congr_left fun t _ => add_sub_cancel _ _).trans (List.map_id ts)
  · exact h.elim

/-- What is written for an operand that fits is as long as its size says. If it does not fit, some
bytes are written all the same, but they may be fewer or more. -/
theorem length_encode {stop : Nat} {kind : OperandKind} {o : Operand} (h : o.Fits stop kind) :
    (o.encode stop kind).length = o.size kind := by
  -- One case for each kind, in the order of `Fits`; the last one is all that do not go together.
  unfold Fits at h
  split at h
  · rfl
  · exact length_leBytes 1 _
  · exact length_leBytes 2 _
  · exact length_signedBytes 1 _
  · exact length_signedBytes 4 _
  · exact length_signedBytes 8 _
  · exact length_signedBytes 1 _
  · exact length_signedBytes 4 _
  · exact length_leBytes 4 _
  · exact length_leBytes 8 _
  · exact length_leBytes 4 _
  · rw [encode, List.length_append, length_leBytes, length_flatMap_signedBytes, List.length_map,
      size]
  · exact h.elim

/-- What is written for an operand that fits is as long as its kind admits. So its length is found
again among whatever bytes follow. -/
theorem admits_encode {stop : Nat} {kind : OperandKind} {o : Operand} (h : o.Fits stop kind) :
    kind.Admits (o.encode stop kind) := by
  have hlength := length_encode h
  unfold OperandKind.Admits
  rcases h.size_eq with hsome | ⟨ts, hnone, rfl, hsize⟩
  · rw [hsome]
    exact hlength
  · -- A switch table says its own length, and this is the count that was written.
    rw [hnone]
    change (leBytes 4 ts.length ++ _).length = _ + 4 * littleEndian ((leBytes 4 ts.length ++ _).take 4)
    rw [List.take_left' (length_leBytes 4 _), littleEndian_leBytes (w := 4) h.length_lt, ← hsize]
    exact hlength

/-- **Bytes of an admitted length are what the operand they make is written as,** and it fits. There
is a case for each kind. That the operand fits is needed to read it again. -/
theorem encode_ofBytes {kind : OperandKind} {bytes : List UInt8} (h : kind.Admits bytes)
    (stop : Nat) :
    (ofBytes kind stop bytes).encode stop kind = bytes ∧
      (ofBytes kind stop bytes).Fits stop kind := by
  cases kind with
  | none => exact ⟨(List.length_eq_zero_iff.mp h).symm, trivial⟩
  | shortVar => exact ⟨leBytes_littleEndian h, littleEndian_lt h⟩
  | var => exact ⟨leBytes_littleEndian h, littleEndian_lt h⟩
  | shortInt =>
    exact ⟨signedBytes_signedLittleEndian h, signed_signedLittleEndian (by decide) h⟩
  | int32 => exact ⟨signedBytes_signedLittleEndian h, signed_signedLittleEndian (by decide) h⟩
  | int64 => exact ⟨signedBytes_signedLittleEndian h, signed_signedLittleEndian (by decide) h⟩
  -- Targets are read as distances from the end, and as such they are written again.
  | shortBranch =>
    change signedBytes 1 (stop + signedLittleEndian bytes - stop) = bytes ∧
      Signed 1 (stop + signedLittleEndian bytes - stop)
    rw [add_sub_cancel_left]
    exact ⟨signedBytes_signedLittleEndian h, signed_signedLittleEndian (by decide) h⟩
  | branch =>
    change signedBytes 4 (stop + signedLittleEndian bytes - stop) = bytes ∧
      Signed 4 (stop + signedLittleEndian bytes - stop)
    rw [add_sub_cancel_left]
    exact ⟨signedBytes_signedLittleEndian h, signed_signedLittleEndian (by decide) h⟩
  -- Floating-point numbers and tokens are kept as they are, bit by bit.
  | float32 =>
    refine ⟨?_, trivial⟩
    change leBytes 4 (UInt32.ofNat (littleEndian bytes)).toNat = bytes
    rw [UInt32.toNat_ofNat_of_lt' (littleEndian_lt h), leBytes_littleEndian h]
  | token =>
    refine ⟨?_, trivial⟩
    change leBytes 4 (UInt32.ofNat (littleEndian bytes)).toNat = bytes
    rw [UInt32.toNat_ofNat_of_lt' (littleEndian_lt h), leBytes_littleEndian h]
  | float64 =>
    refine ⟨?_, trivial⟩
    change leBytes 8 (UInt64.ofNat (littleEndian bytes)).toNat = bytes
    rw [UInt64.toNat_ofNat_of_lt' (littleEndian_lt h), leBytes_littleEndian h]
  | switch =>
    -- Four bytes for the count, and four for each target.
    change bytes.length = 4 + 4 * littleEndian (bytes.take 4) at h
    have hcount : (bytes.take 4).length = 4 := by rw [List.length_take]; omega
    have hrest : (bytes.drop 4).length = 4 * littleEndian (bytes.take 4) := by
      rw [List.length_drop]
      omega
    obtain ⟨htable, hlength, hrange⟩ := flatMap_signedWords hrest
    -- The distances that are written again are the words that were read.
    have hdistances : ((signedWords (bytes.drop 4)).map fun d => (stop : Int) + d).map
        (fun t : Int => t - stop) = signedWords (bytes.drop 4) := by
      rw [List.map_map]
      exact (List.map_congr_left fun d _ => add_sub_cancel_left _ _).trans (List.map_id _)
    refine ⟨?_, ?_, ?_⟩
    · change leBytes 4 ((signedWords (bytes.drop 4)).map _).length ++
        (((signedWords (bytes.drop 4)).map fun d => (stop : Int) + d).map
          (fun t : Int => t - stop)).flatMap (signedBytes 4) = bytes
      rw [hdistances, List.length_map, hlength, htable, leBytes_littleEndian hcount,
        List.take_append_drop]
    · rw [List.length_map, hlength]
      exact littleEndian_lt hcount
    · intro t ht
      obtain ⟨d, hd, rfl⟩ := List.mem_map.mp ht
      rw [add_sub_cancel_left]
      exact hrange d hd

end Operand

/-! ### Instructions -/

namespace Instruction

/-- The number of bytes of an instruction. -/
def length (i : Instruction) : Nat := i.opcode.size + i.operand.size i.opcode.operand

/-- The bytes of an instruction. -/
def encode (i : Instruction) : List UInt8 :=
  i.opcode.encode ++ i.operand.encode i.stop i.opcode.operand

/-- Instructions with an assigned opcode and an operand in range for its kind, which stop where
their bytes do. -/
structure WellFormed (i : Instruction) : Prop where
  assigned : i.opcode ∈ Opcode.table
  fits : i.operand.Fits i.stop i.opcode.operand
  stop_eq : i.stop = i.offset + i.length

/-- An instruction takes a byte at least. This is why reading a body comes to an end. -/
theorem length_pos (i : Instruction) : 0 < i.length :=
  Nat.add_pos_left i.opcode.size_pos _

theorem WellFormed.length_encode {i : Instruction} (h : i.WellFormed) :
    i.encode.length = i.length := by
  rw [encode, List.length_append, Opcode.length_encode, Operand.length_encode h.fits, length]

end Instruction

/-- Reading an instruction is reading its opcode, then finding the length of its operand. The operand
is made from that many bytes, and needs to know where the instruction stops. -/
theorem decodeOne_eq_ok {offset : Nat} {bytes : List UInt8} {i : Instruction} :
    decodeOne offset bytes = .ok i ↔ ∃ o n, readOpcode offset bytes = .ok o ∧
      operandLength offset o.operand (bytes.drop o.size) = .ok n ∧
      i = ⟨offset, o, .ofBytes o.operand (offset + o.size + n) ((bytes.drop o.size).take n),
        offset + o.size + n⟩ := by
  simp only [decodeOne, bind, Except.bind, pure, Except.pure]
  cases hread : readOpcode offset bytes with
  | error e => simp
  | ok o =>
    dsimp only
    cases hlength : operandLength offset o.operand (bytes.drop o.size) with
    | error e => simp [hlength]
    | ok n => simp [hlength, eq_comm]

/-- **Reading is the inverse of writing.** An instruction is read at the start of some bytes exactly
if it starts at their offset, is well formed, and its own bytes come first. -/
theorem decodeOne_eq_ok_iff {offset : Nat} {bytes : List UInt8} {i : Instruction} :
    decodeOne offset bytes = .ok i ↔ i.offset = offset ∧ i.WellFormed ∧ i.encode <+: bytes := by
  rw [decodeOne_eq_ok]
  refine ⟨?_, ?_⟩
  · -- Reading: the bytes are those of the opcode and then at least `n` more, which make the operand.
    rintro ⟨o, n, hread, hlength, rfl⟩
    obtain ⟨hmem, rest, rfl⟩ := readOpcode_eq_ok_iff.mp hread
    rw [List.drop_left' o.length_encode] at hlength ⊢
    obtain ⟨hle, hadmits⟩ := operandLength_eq_ok_iff.mp hlength
    obtain ⟨hencode, hfits⟩ := Operand.encode_ofBytes hadmits (offset + o.size + n)
    have hsize := Operand.length_encode hfits
    rw [hencode, List.length_take, Nat.min_eq_left hle] at hsize
    refine ⟨rfl, ⟨hmem, hfits, ?_⟩, ?_⟩
    · rw [Instruction.length, ← hsize, Nat.add_assoc]
    · rw [Instruction.encode, hencode, List.prefix_append_right_inj]
      exact List.take_prefix n rest
  · -- Writing: each half is found again behind the one before.
    rintro ⟨rfl, hwf, rest, rfl⟩
    have hread : readOpcode i.offset (i.encode ++ rest) = .ok i.opcode := by
      rw [readOpcode_eq_ok_iff, Instruction.encode, List.append_assoc]
      exact ⟨hwf.assigned, List.prefix_append _ _⟩
    have hdrop : (i.encode ++ rest).drop i.opcode.size
        = i.operand.encode i.stop i.opcode.operand ++ rest := by
      rw [Instruction.encode, List.append_assoc, List.drop_left' i.opcode.length_encode]
    have hsize := Operand.length_encode hwf.fits
    refine ⟨i.opcode, i.operand.size i.opcode.operand, hread, ?_, ?_⟩
    · rw [hdrop, operandLength_eq_ok_iff, List.take_left' hsize, List.length_append, hsize]
      exact ⟨Nat.le_add_right _ _, Operand.admits_encode hwf.fits⟩
    · have hstop : i.offset + i.opcode.size + i.operand.size i.opcode.operand = i.stop := by
        rw [hwf.stop_eq, Instruction.length, Nat.add_assoc]
      rw [hdrop, List.take_left' hsize, hstop, Operand.ofBytes_encode hwf.fits]

/-- What cannot be read is a fault at its own offset. If the bytes were too few, then after `used`
of them a read wanted more than there were. -/
theorem decodeOne_eq_error {offset : Nat} {bytes : List UInt8} {e : DecodeError}
    (hne : bytes ≠ []) (h : decodeOne offset bytes = .error e) :
    (∃ code, e = .unknownOpcode offset code) ∨
      ∃ used needed, used ≤ bytes.length ∧ bytes.length - used < needed ∧
        e = .truncated offset needed (bytes.length - used) := by
  simp only [decodeOne, bind, Except.bind, pure, Except.pure] at h
  split at h
  -- There is no opcode. If it was cut short, the escape byte is all there is.
  · next hread =>
    obtain rfl := Except.error.inj h
    rcases readOpcode_eq_error hne hread with hcode | ⟨rfl, rfl⟩
    · exact .inl hcode
    · exact .inr ⟨1, 1, le_rfl, by decide, rfl⟩
  · next o hread =>
    split at h
    · next hlength =>
      obtain ⟨-, rest, rfl⟩ := readOpcode_eq_ok_iff.mp hread
      rw [List.drop_left' o.length_encode] at hlength
      obtain rfl := Except.error.inj h
      obtain ⟨used, needed, hused, hneeded, rfl⟩ := operandLength_eq_error hlength
      -- The bytes of the opcode count as used too.
      have hleft : rest.length - used = (o.encode ++ rest).length - (o.size + used) := by
        rw [List.length_append, o.length_encode]
        omega
      rw [hleft] at hneeded ⊢
      refine .inr ⟨o.size + used, needed, ?_, hneeded, rfl⟩
      rw [List.length_append, o.length_encode]
      omega
    · simp at h

end CilLint
