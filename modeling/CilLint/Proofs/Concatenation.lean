import CilLint.Proofs.Padding

/-!
# Bodies with more bytes behind them

What a body is read as does not depend on what follows it, up to the fault if there is one. The
decoder has stopped somewhere, with some bytes pending, and when more bytes follow it goes on from
there (`exists_pending`). How it goes on depends on why it stopped:

* Nothing was pending. Then the bytes that follow are read as they would be on their own, shifted
  (`decoding_is_compositional`).
* An opcode is unknown. Then no more bytes are looked at (`decodeOne_append_of_unknown`).
* The pending bytes are too few. Then they are the first bytes of an instruction
  (`exists_encode_of_truncated`), and the rest of its bytes completes the body. As long as fewer bytes
  follow than are missing, the body stays truncated (`decodeOne_append_of_short`).
-/

namespace CilLint

/-! ### One instruction -/

/-- An instruction cannot be read if its opcode cannot be, or the length of its operand. -/
theorem decodeOne_eq_error_iff {offset : Nat} {bytes : List UInt8} {e : DecodeError} :
    decodeOne offset bytes = .error e ↔ readOpcode offset bytes = .error e ∨
      ∃ o, readOpcode offset bytes = .ok o ∧
        operandLength offset o.operand (bytes.drop o.size) = .error e := by
  simp only [decodeOne, bind, Except.bind, pure, Except.pure]
  cases hread : readOpcode offset bytes with
  | error e' => simp
  | ok o =>
    dsimp only
    cases hlength : operandLength offset o.operand (bytes.drop o.size) with
    | error e' => simp [hlength]
    | ok n => simp [hlength]

/-- An opcode that is read is read whatever follows. It has been read from its own bytes alone. -/
theorem readOpcode_append_of_ok {offset : Nat} {bytes : List UInt8} {o : Opcode}
    (h : readOpcode offset bytes = .ok o) (more : List UInt8) :
    readOpcode offset (bytes ++ more) = .ok o := by
  obtain ⟨hmem, hfirst⟩ := readOpcode_eq_ok_iff.mp h
  exact readOpcode_eq_ok_iff.mpr ⟨hmem, hfirst.trans (List.prefix_append bytes more)⟩

/-- So is one that is not known, for the byte that decides is there. -/
theorem readOpcode_append_of_unknown {offset start : Nat} {code : UInt16} {bytes : List UInt8}
    (h : readOpcode offset bytes = .error (.unknownOpcode start code)) (more : List UInt8) :
    readOpcode offset (bytes ++ more) = .error (.unknownOpcode start code) := by
  match bytes with
  | [] => simp at h
  | first :: rest =>
    by_cases hescape : first = Opcode.escapeByte
    · subst hescape
      -- The byte after the escape is there, since without it the fault would be another one.
      match rest with
      | [] => simp at h
      | second :: rest => exact h
    · rw [readOpcode_short offset hescape] at h
      exact (readOpcode_short offset hescape _).trans h

/-- **An unknown opcode is one whatever follows.** It is found before any operand is looked at, so it
does not matter how many bytes there are. -/
theorem decodeOne_append_of_unknown {offset start : Nat} {code : UInt16} {bytes : List UInt8}
    (h : decodeOne offset bytes = .error (.unknownOpcode start code)) (more : List UInt8) :
    decodeOne offset (bytes ++ more) = .error (.unknownOpcode start code) := by
  rcases decodeOne_eq_error_iff.mp h with hread | ⟨o, -, hlength⟩
  · exact decodeOne_eq_error_iff.mpr (.inl (readOpcode_append_of_unknown hread more))
  · obtain ⟨used, needed, -, -, heq⟩ := operandLength_eq_error hlength
    cases heq

/-! ### Instructions that are cut short -/

/-- An operand with too few bytes stays without its length as long as they are too few. What is needed
does not change, even in a switch table: its count is there or is itself what is needed. -/
theorem operandLength_append_of_short {offset start needed available : Nat} {kind : OperandKind}
    {bytes more : List UInt8}
    (h : operandLength offset kind bytes = .error (.truncated start needed available))
    (hmore : available + more.length < needed) :
    operandLength offset kind (bytes ++ more)
      = .error (.truncated start needed (available + more.length)) := by
  unfold operandLength at h ⊢
  cases hfixed : kind.fixedLength? with
  -- As many bytes are needed as the kind says.
  | some n =>
    rw [hfixed] at h
    dsimp only at h ⊢
    split at h
    · cases h
    · obtain ⟨rfl, rfl, rfl⟩ := DecodeError.truncated.inj (Except.error.inj h)
      have hshort : ¬ hasBytes n (bytes ++ more) = true := by
        rw [hasBytes_eq_true_iff, List.length_append]
        omega
      rw [if_neg hshort, List.length_append]
  | none =>
    rw [hfixed] at h
    dsimp only at h ⊢
    split at h
    · -- The count is there, and more bytes do not change it.
      next hcount =>
      rw [hasBytes_eq_true_iff] at hcount
      split at h
      · cases h
      · obtain ⟨rfl, rfl, rfl⟩ := DecodeError.truncated.inj (Except.error.inj h)
        have hcount' : hasBytes 4 (bytes ++ more) = true := by
          rw [hasBytes_eq_true_iff, List.length_append]
          omega
        have hshort : ¬ hasBytes (4 + 4 * littleEndian (bytes.take 4)) (bytes ++ more) = true := by
          rw [hasBytes_eq_true_iff, List.length_append]
          omega
        rw [if_pos hcount', List.take_append_of_le_length hcount, if_neg hshort, List.length_append,
          Nat.sub_add_comm hcount]
    -- The count itself is cut short, and it stays so.
    · obtain ⟨rfl, rfl, rfl⟩ := DecodeError.truncated.inj (Except.error.inj h)
      have hshort : ¬ hasBytes 4 (bytes ++ more) = true := by
        rw [hasBytes_eq_true_iff, List.length_append]
        omega
      rw [if_neg hshort, List.length_append]

/-- **What is missing is really needed:** with fewer bytes the instruction stays truncated. It is the
same fault, and only the number of bytes that are available has changed. -/
theorem decodeOne_append_of_short {offset start needed available : Nat} {bytes more : List UInt8}
    (hne : bytes ≠ []) (h : decodeOne offset bytes = .error (.truncated start needed available))
    (hmore : available + more.length < needed) :
    decodeOne offset (bytes ++ more) = .error (.truncated start needed (available + more.length)) := by
  rcases decodeOne_eq_error_iff.mp h with hread | ⟨o, hread, hlength⟩
  · -- One byte is missing, so nothing follows.
    rcases readOpcode_eq_error hne hread with ⟨code, heq⟩ | ⟨heq, -⟩
    · cases heq
    · obtain ⟨rfl, rfl, rfl⟩ := DecodeError.truncated.inj heq
      obtain rfl : more = [] := List.length_eq_zero_iff.mp (by omega)
      rw [List.append_nil]
      exact h
  -- The opcode is there, so it is the operand that is cut short.
  · refine decodeOne_eq_error_iff.mpr (.inr ⟨o, readOpcode_append_of_ok hread more, ?_⟩)
    obtain ⟨-, rest, rfl⟩ := readOpcode_eq_ok_iff.mp hread
    rw [List.append_assoc, List.drop_left' o.length_encode]
    rw [List.drop_left' o.length_encode] at hlength
    exact operandLength_append_of_short hlength hmore

theorem take_append_zeros {bytes : List UInt8} {n : Nat} (h : 4 ≤ bytes.length + n) :
    (bytes ++ List.replicate n 0).take 4 = (bytes ++ List.replicate 4 0).take 4 := by
  rw [List.take_append, List.take_append, List.take_replicate, List.take_replicate,
    Nat.min_eq_left (by omega), Nat.min_eq_left (by omega)]

/-- Bytes that are too few for an operand are the first bytes of one. Zeros make up the rest; in a
switch table they make up the rest of the count first, and then as many targets as it says. -/
theorem exists_admits_of_truncated {offset : Nat} {kind : OperandKind} {bytes : List UInt8}
    {e : DecodeError} (h : operandLength offset kind bytes = .error e) :
    ∃ operand, kind.Admits operand ∧ bytes <+: operand := by
  unfold operandLength at h
  cases hfixed : kind.fixedLength? with
  | some n =>
    rw [hfixed] at h
    dsimp only at h
    split at h
    · cases h
    · next hshort =>
      rw [hasBytes_eq_true_iff] at hshort
      refine ⟨bytes ++ List.replicate (n - bytes.length) 0, ?_, List.prefix_append _ _⟩
      rw [OperandKind.admits_iff_of_fixedLength hfixed, List.length_append, List.length_replicate]
      omega
  | none =>
    rw [hfixed] at h
    dsimp only at h
    -- The count, with zeros in place of what is missing of it.
    let count := littleEndian ((bytes ++ List.replicate 4 0).take 4)
    have hlength : bytes.length ≤ 4 + 4 * count := by
      by_cases hcount : 4 ≤ bytes.length
      · rw [if_pos (hasBytes_eq_true_iff.mpr hcount)] at h
        split at h
        · cases h
        · next hshort =>
          rw [hasBytes_eq_true_iff] at hshort
          have hsame : count = littleEndian (bytes.take 4) :=
            congrArg littleEndian (List.take_append_of_le_length hcount)
          omega
      · omega
    refine ⟨bytes ++ List.replicate (4 + 4 * count - bytes.length) 0, ?_, List.prefix_append _ _⟩
    unfold OperandKind.Admits
    rw [hfixed]
    dsimp only
    rw [take_append_zeros (by omega), List.length_append, List.length_replicate]
    omega

/-- **Bytes that are too few are the first bytes of an instruction.** So something can follow that
makes them complete. This is wrong for an opcode that is not known. -/
theorem exists_encode_of_truncated {offset start needed available : Nat} {bytes : List UInt8}
    (hne : bytes ≠ []) (h : decodeOne offset bytes = .error (.truncated start needed available)) :
    ∃ i : Instruction, i.WellFormed ∧ i.offset = offset ∧ bytes <+: i.encode := by
  rcases decodeOne_eq_error_iff.mp h with hread | ⟨o, hread, hlength⟩
  · rcases readOpcode_eq_error hne hread with ⟨code, heq⟩ | ⟨-, rfl⟩
    · cases heq
    · -- An escape without a second byte begins every long opcode.
      have hassigned : ⟨0xFE00, "arglist", .none, .next⟩ ∈ Opcode.table := by decide +kernel
      have hadmits : OperandKind.none.Admits [] := List.length_nil
      refine ⟨.ofParts offset ⟨0xFE00, "arglist", .none, .next⟩ [],
        Instruction.wellFormed_ofParts hassigned hadmits offset, rfl, ?_⟩
      rw [Instruction.encode_ofParts hadmits]
      decide
  -- The opcode is there, and some operand begins with the bytes behind it.
  · obtain ⟨hassigned, rest, rfl⟩ := readOpcode_eq_ok_iff.mp hread
    rw [List.drop_left' o.length_encode] at hlength
    obtain ⟨operand, hadmits, hfirst⟩ := exists_admits_of_truncated hlength
    refine ⟨.ofParts offset o operand, Instruction.wellFormed_ofParts hassigned hadmits offset, rfl, ?_⟩
    rw [Instruction.encode_ofParts hadmits, List.prefix_append_right_inj]
    exact hfirst

/-! ### Whole bodies -/

/-- Bodies that decode to their end have no fault, and their instructions are all there is. -/
theorem Decoded.eq_of_all {d : Decoded} {xs : List Instruction} (h : d.all = .ok xs) :
    d = ⟨xs, none⟩ := by
  obtain ⟨is, error⟩ := d
  cases error with
  | none => exact congrArg (Decoded.mk · none) (Except.ok.inj h)
  | some e => cases h

/-- **Decoding goes on where it stopped.** What was read stays, and the pending bytes are read together
with those that follow. -/
theorem exists_pending (body : List UInt8) :
    ∃ stop pending,
      (∀ e, (decode body).error = some e → pending ≠ [] ∧ decodeOne stop pending = .error e) ∧
      ∀ more, decode (body ++ more)
        = ⟨(decode body).instructions ++ (decodeFrom stop (pending ++ more)).instructions,
            (decodeFrom stop (pending ++ more)).error⟩ := by
  obtain ⟨stop, pending, htiles, hbody, -, hfault⟩ := (decodes_decodeFrom 0 body).exists_rest
  refine ⟨stop, pending, hfault, ?_⟩
  intro more
  have hdecode := htiles.decodeFrom_append (pending ++ more)
  rwa [← List.append_assoc, ← hbody] at hdecode

/-- **Decoding is compositional.** If a body decodes to its end, then what follows it is read as it
would be on its own, except that all offsets and targets are larger by the length of the body. -/
theorem decoding_is_compositional {a : List UInt8} {xs : List Instruction}
    (h : (decode a).all = .ok xs) (b : List UInt8) :
    decode (a ++ b)
      = ⟨xs ++ (decode b).instructions.map (Instruction.shift a.length),
          (decode b).error.map (DecodeError.shift a.length)⟩ := by
  obtain ⟨stop, rest, htiles, hbody, hdone⟩ := exists_tiles_decode a
  rw [Decoded.eq_of_all h] at htiles hbody hdone
  -- Nothing is left over, so the instructions of the first body reach to its end.
  have hbytes : xs.flatMap Instruction.encode = a := by
    rw [hdone rfl, List.append_nil] at hbody
    exact hbody.symm
  have hstop : a.length = stop := by
    rw [← htiles.length_encode, Nat.zero_add]
    exact congrArg List.length hbytes.symm
  have hdecode := htiles.decode_append b
  dsimp only at hdecode
  rw [hbytes, ← hstop] at hdecode
  exact hdecode

/-- A branch to its own start, and then an escape with an unassigned code, behind a short load. The
branch goes to its start still, and the fault is further on too. -/
theorem decode_load_then_branch :
    (decode [0x1F, 0x07]).all = .ok [⟨0, ⟨0x1F, "ldc.i4.s", .shortInt, .next⟩, .int 7, 2⟩] ∧
      decode ([0x1F, 0x07] ++ [0x2B, 0xFE, 0xFE, 0x24])
        = ⟨[⟨0, ⟨0x1F, "ldc.i4.s", .shortInt, .next⟩, .int 7, 2⟩,
              ⟨2, ⟨0x2B, "br.s", .shortBranch, .branch⟩, .branch 2, 4⟩],
            some (.unknownOpcode 4 0xFE24)⟩ := by
  have hwhole : (decode [0x1F, 0x07]).all
      = .ok [⟨0, ⟨0x1F, "ldc.i4.s", .shortInt, .next⟩, .int 7, 2⟩] := by decide +kernel
  have hrest : decode [0x2B, 0xFE, 0xFE, 0x24]
      = ⟨[⟨0, ⟨0x2B, "br.s", .shortBranch, .branch⟩, .branch 0, 2⟩],
          some (.unknownOpcode 2 0xFE24)⟩ := by decide +kernel
  refine ⟨hwhole, (decoding_is_compositional hwhole _).trans ?_⟩
  rw [hrest]
  rfl

/-- **Truncation can be repaired and an unknown opcode cannot.** A truncated body has fewer bytes than
needed. As long as fewer bytes follow than are missing it stays truncated at the same place, and only
what is available grows. But some bytes complete it, with one more instruction. If an opcode is unknown,
nothing that follows makes a difference. And what was read is read in every case. -/
theorem truncation_is_recoverable (body : List UInt8) :
    (∀ offset needed available, (decode body).error = some (.truncated offset needed available) →
      available < needed ∧
      (∀ more : List UInt8, available + more.length < needed → decode (body ++ more)
        = ⟨(decode body).instructions,
            some (.truncated offset needed (available + more.length))⟩) ∧
      ∃ more last, (decode (body ++ more)).all = .ok ((decode body).instructions ++ [last])) ∧
    (∀ offset code, (decode body).error = some (.unknownOpcode offset code) →
      ∀ more, decode (body ++ more) = decode body) ∧
    ∀ more, (decode body).instructions <+: (decode (body ++ more)).instructions := by
  obtain ⟨stop, pending, hfault, hdecode⟩ := exists_pending body
  -- A fault in the pending bytes is what the body ends with.
  have hends : ∀ more e, pending ≠ [] → decodeOne stop (pending ++ more) = .error e →
      decode (body ++ more) = ⟨(decode body).instructions, some e⟩ := by
    intro more e hne hone
    rw [hdecode, decodeFrom_error (List.append_ne_nil_of_left_ne_nil hne more) hone, List.append_nil]
  refine ⟨?_, ?_, ?_⟩
  · intro offset needed available herror
    obtain ⟨hne, hone⟩ := hfault _ herror
    refine ⟨((tilesBody_decode body).cutShort _ _ _ herror).1, ?_, ?_⟩
    · intro more hmore
      exact hends more _ hne (decodeOne_append_of_short hne hone hmore)
    -- The rest of an instruction that begins with the pending bytes completes the body.
    · obtain ⟨last, hlast, rfl, more, hmore⟩ := exists_encode_of_truncated hne hone
      refine ⟨more, last, ?_⟩
      have hread := decodeFrom_encode_append hlast []
      rw [List.append_nil, decodeFrom_nil] at hread
      rw [hdecode, hmore, hread]
      rfl
  -- An unknown opcode is one with any bytes behind it, so the fault stays.
  · intro offset code herror more
    obtain ⟨hne, hone⟩ := hfault _ herror
    rw [hends more _ hne (decodeOne_append_of_unknown hone more), ← herror]
  · intro more
    rw [hdecode]
    exact List.prefix_append _ _

/-- A no-operation, and a switch that is cut within its count. -/
theorem decode_cut_switch :
    (decode [0x00, 0x45, 0x02]).error = some (.truncated 1 4 1) ∧
      (decode ([0x00, 0x45, 0x02] ++ [0x00, 0x00])).error = some (.truncated 1 4 3) ∧
      (∃ more last, (decode ([0x00, 0x45, 0x02] ++ more)).all
        = .ok ((decode [0x00, 0x45, 0x02]).instructions ++ [last])) ∧
      decode ([0x00, 0x24] ++ [0x2A]) = decode [0x00, 0x24] := by
  have hcut : (decode [0x00, 0x45, 0x02]).error = some (.truncated 1 4 1) := by decide +kernel
  have hunknown : (decode [0x00, 0x24]).error = some (.unknownOpcode 1 0x24) := by decide +kernel
  obtain ⟨-, hstays, hcompleted⟩ := (truncation_is_recoverable [0x00, 0x45, 0x02]).1 _ _ _ hcut
  refine ⟨hcut, ?_, hcompleted, (truncation_is_recoverable [0x00, 0x24]).2.1 _ _ hunknown [0x2A]⟩
  rw [hstays [0x00, 0x00] (by decide)]
  rfl

end CilLint
