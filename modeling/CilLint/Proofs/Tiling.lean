import CilLint.Proofs.Encoding

/-!
# Decoding tiles the body

A body decodes to instructions that lie next to each other from its start. They end at the end of
the body, or where the fault lies, and writing them again gives back the bytes they were read from.
In the other direction, instructions that are written one after another are read back.

`Decodes` is what a run of the decoder can be: at the end, at a fault, or an instruction that is
written first and then a run on the rest. `decodeFrom_iff` says that it is the decoder. Everything
else is an induction on runs, or on `Tiles`:

* `Decodes.exists_rest` — the bytes are the instructions read, written again, and a rest that is
  empty or starts with the fault;
* `Tiles.decodeFrom_append` — a tiling that is written in front of some bytes is read first.

`decode_lossless_tiling` puts them together.
-/

namespace CilLint

/-! ### Runs of the decoder -/

/-- At the end of the bytes there is nothing left to decode. -/
@[simp] theorem decodeFrom_nil (offset : Nat) : decodeFrom offset [] = ⟨[], none⟩ := by
  rw [decodeFrom, dif_pos rfl]

/-- At a fault decoding stops, and what follows is not looked at. So there is at most one fault, and
it is the last thing that is said about a body. -/
theorem decodeFrom_error {offset : Nat} {bytes : List UInt8} {e : DecodeError} (hne : bytes ≠ [])
    (h : decodeOne offset bytes = .error e) : decodeFrom offset bytes = ⟨[], some e⟩ := by
  rw [decodeFrom, dif_neg hne]
  split
  · next e' h' => rw [Except.error.inj (h'.symm.trans h)]
  · next h' => simp [h] at h'

/-- An instruction that is written in front of some bytes is read first, and then decoding goes on
where it stops. -/
theorem decodeFrom_encode_append {i : Instruction} (h : i.WellFormed) (rest : List UInt8) :
    decodeFrom i.offset (i.encode ++ rest)
      = ⟨i :: (decodeFrom i.stop rest).instructions, (decodeFrom i.stop rest).error⟩ := by
  -- It is read as itself, and as many bytes are taken off as it has.
  have hone : decodeOne i.offset (i.encode ++ rest) = .ok i :=
    decodeOne_eq_ok_iff.mpr ⟨rfl, h, List.prefix_append _ _⟩
  have hlength : i.encode.length = i.stop - i.offset := by
    rw [h.length_encode, h.stop_eq, Nat.add_sub_cancel_left]
  -- From nothing nothing is read.
  have hne : i.encode ++ rest ≠ [] := by
    intro hnil
    rw [hnil] at hone
    simp [decodeOne, bind, Except.bind] at hone
  rw [decodeFrom, dif_neg hne]
  split
  · next h' => simp [hone] at h'
  · next j h' =>
    obtain rfl := Except.ok.inj (hone.symm.trans h')
    rw [List.drop_left' hlength]

/-- What a run of the decoder on the bytes at an offset can be. -/
inductive Decodes : Nat → List UInt8 → Decoded → Prop where
  | done (offset : Nat) : Decodes offset [] ⟨[], none⟩
  | fault {offset : Nat} {bytes : List UInt8} {e : DecodeError} (hne : bytes ≠ [])
      (h : decodeOne offset bytes = .error e) : Decodes offset bytes ⟨[], some e⟩
  | step {i : Instruction} {rest : List UInt8} {d : Decoded} (h : i.WellFormed)
      (hrest : Decodes i.stop rest d) :
      Decodes i.offset (i.encode ++ rest) ⟨i :: d.instructions, d.error⟩

/-- Every run of the decoder is one of `Decodes`. The decoder recurses on what it has left, and a run
is built along with it. -/
theorem decodes_decodeFrom (offset : Nat) (bytes : List UInt8) :
    Decodes offset bytes (decodeFrom offset bytes) := by
  induction hlength : bytes.length using Nat.strong_induction_on generalizing offset bytes with
  | _ n ih =>
    -- Each instruction takes at least one byte, so the induction is on the number of bytes left.
    by_cases hne : bytes = []
    · subst hne
      rw [decodeFrom_nil]
      exact .done offset
    · cases hone : decodeOne offset bytes with
      | error e =>
        rw [decodeFrom_error hne hone]
        exact .fault hne hone
      | ok i =>
        obtain ⟨rfl, hwf, rest, rfl⟩ := decodeOne_eq_ok_iff.mp hone
        have hshorter : rest.length < n := by
          rw [← hlength, List.length_append, hwf.length_encode]
          exact Nat.lt_add_of_pos_left i.length_pos
        rw [decodeFrom_encode_append hwf]
        exact .step hwf (ih rest.length hshorter i.stop rest rfl)

/-- **The decoder is `Decodes`.** So bytes have one run only, and what holds of all runs, by induction
on them, is what holds of the decoder. -/
theorem decodeFrom_iff {offset : Nat} {bytes : List UInt8} {d : Decoded} :
    decodeFrom offset bytes = d ↔ Decodes offset bytes d := by
  refine ⟨?_, ?_⟩
  · rintro rfl
    exact decodes_decodeFrom offset bytes
  · intro h
    induction h with
    | done offset => exact decodeFrom_nil offset
    | fault hne h => exact decodeFrom_error hne h
    | step h _ ih => rw [decodeFrom_encode_append h, ih]

/-! ### Tilings -/

/-- Well-formed instructions that lie next to each other from `start` to `stop`. -/
inductive Tiles : Nat → List Instruction → Nat → Prop where
  | nil (start : Nat) : Tiles start [] start
  | cons {i : Instruction} {xs : List Instruction} {stop : Nat} (h : i.WellFormed)
      (hrest : Tiles i.stop xs stop) : Tiles i.offset (i :: xs) stop

namespace Tiles

variable {start stop : Nat} {xs : List Instruction}

/-- A tiling starts where its first instruction does. -/
theorem head (h : Tiles start xs stop) : ∀ i ∈ xs.head?, i.offset = start := by
  cases h with
  | nil => simp
  | cons h hrest => simp

/-- Each instruction begins where the one before it stops. There are no gaps, and no instruction
overlaps the next one. -/
theorem isChain (h : Tiles start xs stop) : xs.IsChain fun i j => i.stop = j.offset := by
  induction h with
  | nil => exact .nil
  | @cons i xs stop h hrest ih =>
    cases xs with
    | nil => exact .singleton i
    | cons j xs => exact .cons_cons (hrest.head j rfl).symm ih

/-- All instructions of a tiling are well-formed. -/
theorem wellFormed (h : Tiles start xs stop) : ∀ i ∈ xs, i.WellFormed := by
  induction h with
  | nil => simp
  | cons h hrest ih => exact List.forall_mem_cons.mpr ⟨h, ih⟩

/-- A tiling stops where its last instruction does, or at its start if there is none. This is how the
end is known from the instructions alone. -/
theorem stop_eq (h : Tiles start xs stop) :
    (xs.getLast?.map Instruction.stop).getD start = stop := by
  induction h with
  | nil => rfl
  | @cons i xs stop h hrest ih =>
    rw [← ih, List.getLast?_cons]
    cases xs.getLast? <;> rfl

theorem length_encode (h : Tiles start xs stop) :
    start + (xs.flatMap Instruction.encode).length = stop := by
  induction h with
  | nil => rfl
  | cons h hrest ih =>
    rw [List.flatMap_cons, List.length_append, h.length_encode, ← Nat.add_assoc, ← h.stop_eq, ih]

/-- No instruction reaches beyond the end. After each of them there are the bytes of the others. -/
theorem stop_le (h : Tiles start xs stop) : ∀ i ∈ xs, i.stop ≤ stop := by
  induction h with
  | nil => simp
  | cons h hrest ih =>
    have hle := hrest.length_encode
    exact List.forall_mem_cons.mpr ⟨by omega, ih⟩

/-- **A tiling that is written in front of some bytes is read first,** and then decoding goes on as it
would at its end. -/
theorem decodeFrom_append (h : Tiles start xs stop) (rest : List UInt8) :
    decodeFrom start (xs.flatMap Instruction.encode ++ rest)
      = ⟨xs ++ (decodeFrom stop rest).instructions, (decodeFrom stop rest).error⟩ := by
  induction h with
  | nil => rfl
  | cons h hrest ih =>
    rw [List.flatMap_cons, List.append_assoc, decodeFrom_encode_append h, ih, List.cons_append]

end Tiles

/-- The bytes of a run are the instructions read, written again, and a rest. The rest is empty, or it
starts with the fault. All that is claimed of the result of decoding is read off this. -/
theorem Decodes.exists_rest {offset : Nat} {bytes : List UInt8} {d : Decoded}
    (h : Decodes offset bytes d) :
    ∃ stop rest, Tiles offset d.instructions stop ∧
      bytes = d.instructions.flatMap Instruction.encode ++ rest ∧
      (d.error = none → rest = []) ∧
      ∀ e, d.error = some e → rest ≠ [] ∧ decodeOne stop rest = .error e := by
  induction h with
  | done offset => exact ⟨offset, [], .nil offset, rfl, fun _ => rfl, by simp⟩
  | @fault offset bytes e hne h =>
    refine ⟨offset, bytes, .nil offset, rfl, by simp, ?_⟩
    rintro e' he
    rw [← Option.some.inj he]
    exact ⟨hne, h⟩
  -- One more instruction in front changes neither the rest nor where it begins.
  | @step i rest d h hrest ih =>
    obtain ⟨stop, rest', htiles, hbytes, hdone, hfault⟩ := ih
    refine ⟨stop, rest', .cons h htiles, ?_, hdone, hfault⟩
    rw [hbytes, List.flatMap_cons, List.append_assoc]

/-! ### Instructions moved together -/

/-- An operand whose targets are moved by a distance. -/
def Operand.shift (distance : Int) : Operand → Operand
  | .branch t => .branch (t + distance)
  | .switch ts => .switch (ts.map fun t => t + distance)
  | o => o

/-- An instruction moved to another offset, with its targets. -/
def Instruction.moveTo (offset : Nat) (i : Instruction) : Instruction where
  offset := offset
  opcode := i.opcode
  operand := i.operand.shift (((offset + i.length : Nat) : Int) - (i.stop : Int))
  stop := offset + i.length

/-- Instructions moved next to each other, from an offset on. -/
def layOut (offset : Nat) : List Instruction → List Instruction
  | [] => []
  | i :: xs => i.moveTo offset :: layOut (offset + i.length) xs

/-- Moving targets does not change how many there are. -/
theorem Operand.size_shift (kind : OperandKind) (distance : Int) (o : Operand) :
    (o.shift distance).size kind = o.size kind := by
  cases o with
  | switch ts => exact congrArg (4 + 4 * ·) (List.length_map _)
  | _ => rfl

/-- The distance of a target from the end does not change if both move together. -/
private theorem distance_shift (old new : Nat) (t : Int) :
    t + ((new : Int) - (old : Int)) - (new : Int) = t - (old : Int) := by
  omega

/-- **A moved operand has the same bytes,** since branches are written as distances from the end of
the instruction, and the end moves too. -/
theorem Operand.encode_shift (kind : OperandKind) (old new : Nat) (o : Operand) :
    (o.shift ((new : Int) - (old : Int))).encode new kind = o.encode old kind := by
  cases o with
  | branch t => exact congrArg (signedBytes _) (distance_shift old new t)
  | switch ts =>
    rw [Operand.shift, Operand.encode, Operand.encode, List.length_map, List.map_map]
    congr 2
    exact List.map_congr_left fun t _ => distance_shift old new t
  | _ => rfl

/-- For the same reason it still fits. -/
theorem Operand.fits_shift {kind : OperandKind} {old new : Nat} {o : Operand}
    (h : o.Fits old kind) : (o.shift ((new : Int) - (old : Int))).Fits new kind := by
  cases o with
  | branch t =>
    -- A range is one of distances, so it does not matter where the target is.
    cases kind with
    | shortBranch =>
      change Signed 1 (t + ((new : Int) - (old : Int)) - (new : Int))
      rw [distance_shift]
      exact h
    | branch =>
      change Signed 4 (t + ((new : Int) - (old : Int)) - (new : Int))
      rw [distance_shift]
      exact h
    | _ => exact h.elim
  | switch ts =>
    cases kind with
    | switch =>
      refine ⟨by rw [List.length_map]; exact h.1, ?_⟩
      intro t ht
      obtain ⟨t', ht', rfl⟩ := List.mem_map.mp ht
      rw [distance_shift]
      exact h.2 t' ht'
    | _ => exact h.elim
  | _ => cases kind <;> exact h

namespace Instruction

/-- A moved instruction has the same bytes, and so it is as long as before. -/
theorem encode_moveTo (offset : Nat) (i : Instruction) : (i.moveTo offset).encode = i.encode := by
  rw [encode, encode, moveTo, Operand.encode_shift]

theorem length_moveTo (offset : Nat) (i : Instruction) : (i.moveTo offset).length = i.length := by
  unfold length moveTo
  rw [Operand.size_shift]

/-- It is well-formed where it is now, even if it did not lie where it said: all that is asked is that
the opcode is assigned and that the operand fits. -/
theorem wellFormed_moveTo {i : Instruction} (hassigned : i.opcode ∈ Opcode.table)
    (hfits : i.operand.Fits i.stop i.opcode.operand) (offset : Nat) :
    (i.moveTo offset).WellFormed where
  assigned := hassigned
  fits := Operand.fits_shift hfits
  stop_eq := by
    rw [length_moveTo]
    rfl

/-- A well-formed instruction that is moved to where it is stays the same. One that is not might say
that it stops somewhere else. -/
theorem WellFormed.moveTo_offset {i : Instruction} (h : i.WellFormed) : i.moveTo i.offset = i := by
  -- It moves by the distance zero.
  have hshift : i.operand.shift 0 = i.operand := by
    cases i.operand with
    | branch t => exact congrArg Operand.branch (add_zero t)
    | switch ts =>
      exact congrArg Operand.switch
        ((List.map_congr_left fun t _ => add_zero t).trans (List.map_id ts))
    | _ => rfl
  rw [moveTo, ← h.stop_eq, sub_self, hshift]

end Instruction

/-- Instructions that are moved next to each other have the same bytes, one after another. -/
theorem flatMap_encode_layOut (offset : Nat) (xs : List Instruction) :
    (layOut offset xs).flatMap Instruction.encode = xs.flatMap Instruction.encode := by
  induction xs generalizing offset with
  | nil => rfl
  | cons i xs ih =>
    rw [layOut, List.flatMap_cons, List.flatMap_cons, ih, Instruction.encode_moveTo]

/-- Instructions that are moved next to each other tile. Where they said they lie is forgotten, and
their targets move along. -/
theorem tiles_layOut {xs : List Instruction}
    (h : ∀ i ∈ xs, i.opcode ∈ Opcode.table ∧ i.operand.Fits i.stop i.opcode.operand)
    (offset : Nat) : ∃ stop, Tiles offset (layOut offset xs) stop := by
  induction xs generalizing offset with
  | nil => exact ⟨offset, .nil offset⟩
  | cons i xs ih =>
    obtain ⟨hassigned, hfits⟩ := h i List.mem_cons_self
    obtain ⟨stop, hrest⟩ := ih (fun j hj => h j (List.mem_cons_of_mem i hj)) (offset + i.length)
    exact ⟨stop, .cons (Instruction.wellFormed_moveTo hassigned hfits offset) hrest⟩

/-- Those that lie next to each other already are not moved. So reading back what was written gives
the very same instructions. -/
theorem Tiles.layOut_eq {start stop : Nat} {xs : List Instruction} (h : Tiles start xs stop) :
    layOut start xs = xs := by
  induction h with
  | nil => rfl
  | cons h hrest ih => rw [layOut, h.moveTo_offset, ← h.stop_eq, ih]

/-! ### The whole body -/

namespace Decoded

/-- Where decoding came to: the end of the last instruction. -/
def reached (d : Decoded) : Nat := (d.instructions.getLast?.map Instruction.stop).getD 0

/-- What makes the result of decoding a tiling of the body from which nothing is lost. -/
structure TilesBody (d : Decoded) (body : List UInt8) : Prop where
  first : ∀ i ∈ d.instructions.head?, i.offset = 0
  adjacent : d.instructions.IsChain fun i j => i.stop = j.offset
  /-- Each instruction is as long as its opcode and an operand of its kind. -/
  extent : ∀ i ∈ d.instructions, ∃ n, i.stop = i.offset + i.opcode.size + n ∧
    (i.opcode.operand.fixedLength? = some n ∨
      ∃ targets, i.opcode.operand.fixedLength? = none ∧ i.operand = .switch targets ∧
        n = 4 + 4 * targets.length)
  within : ∀ i ∈ d.instructions, i.stop ≤ body.length
  finished : d.error = none → d.reached = body.length
  stopped : ∀ e ∈ d.error, e.offset = d.reached ∧ e.offset < body.length
  /-- A read that failed began inside the body and wanted more than was left there. -/
  cutShort : ∀ offset needed available, d.error = some (.truncated offset needed available) →
    available < needed ∧
      ∃ position, offset ≤ position ∧ position ≤ body.length ∧ available = body.length - position
  all_eq_ok : d.all = .ok d.instructions ↔ d.error = none
  all_eq_error : ∀ e, d.all = .error e ↔ d.error = some e
  rewritten : d.instructions.flatMap Instruction.encode = body.take d.reached

end Decoded

/-- A well-formed instruction is as long as its opcode and its operand. The length of the operand is
that of its kind, or follows from the number of targets of a switch. -/
theorem Instruction.WellFormed.extent {i : Instruction} (h : i.WellFormed) :
    ∃ n, i.stop = i.offset + i.opcode.size + n ∧
      (i.opcode.operand.fixedLength? = some n ∨
        ∃ targets, i.opcode.operand.fixedLength? = none ∧ i.operand = .switch targets ∧
          n = 4 + 4 * targets.length) := by
  refine ⟨i.operand.size i.opcode.operand, ?_, h.fits.size_eq⟩
  rw [h.stop_eq, Instruction.length, Nat.add_assoc]

/-- All instructions are given exactly if there is no fault. -/
theorem Decoded.all_eq_ok_iff (d : Decoded) : d.all = .ok d.instructions ↔ d.error = none := by
  unfold Decoded.all
  cases d.error <;> simp

/-- And otherwise the fault is given, and not what was decoded before it. -/
theorem Decoded.all_eq_error_iff (d : Decoded) (e : DecodeError) :
    d.all = .error e ↔ d.error = some e := by
  unfold Decoded.all
  cases d.error <;> simp

/-- The result of decoding tiles the body. The run splits the body into what was read and the rest;
where decoding came to is the length of the first part. -/
theorem tilesBody_decode (body : List UInt8) : (decode body).TilesBody body := by
  obtain ⟨stop, rest, htiles, hbody, hdone, hfault⟩ := (decodes_decodeFrom 0 body).exists_rest
  change Tiles 0 (decode body).instructions stop at htiles
  change body = (decode body).instructions.flatMap Instruction.encode ++ rest at hbody
  -- Three facts about lengths carry all the rest: where decoding came to, how much that is, and what
  -- is left.
  have hreached : (decode body).reached = stop := htiles.stop_eq
  have hwritten : ((decode body).instructions.flatMap Instruction.encode).length = stop := by
    rw [← htiles.length_encode, Nat.zero_add]
  have hlength : body.length = stop + rest.length := by
    rw [← hwritten, ← List.length_append, ← hbody]
  refine
    { first := htiles.head
      adjacent := htiles.isChain
      extent := fun i hi => (htiles.wellFormed i hi).extent
      within := fun i hi => (htiles.stop_le i hi).trans (by omega)
      finished := ?_
      stopped := ?_
      cutShort := ?_
      all_eq_ok := Decoded.all_eq_ok_iff _
      all_eq_error := Decoded.all_eq_error_iff _
      rewritten := ?_ }
  · intro hnone
    rw [hreached, hlength, hdone hnone, List.length_nil, Nat.add_zero]
  · intro e he
    obtain ⟨hne, hone⟩ := hfault e he
    have hpos := List.length_pos_iff.mpr hne
    rw [hreached]
    rcases decodeOne_eq_error hne hone with ⟨code, rfl⟩ | ⟨used, needed, -, -, rfl⟩
    · exact ⟨rfl, by change stop < _; omega⟩
    · exact ⟨rfl, by change stop < _; omega⟩
  -- A fault of an unknown opcode is none of these. A read that was cut short began `used` bytes
  -- behind the offset of the instruction.
  · intro offset needed available he
    obtain ⟨hne, hone⟩ := hfault _ he
    rcases decodeOne_eq_error hne hone with ⟨code, heq⟩ | ⟨used, needed', hused, hneeded, heq⟩
    · exact absurd heq (by simp)
    · obtain ⟨rfl, rfl, rfl⟩ := DecodeError.truncated.inj heq
      exact ⟨hneeded, offset + used, by omega, by omega, by omega⟩
  · rw [hreached]
    conv_rhs => rw [hbody]
    exact (List.take_left' hwritten).symm

/-- **Decoding is a lossless tiling of the body.** Every body decodes to a tiling of it, and writing
the instructions again gives back what was read. Instructions of assigned opcodes whose operands are
in range are read back from their bytes, moved next to each other; and those that lie next to each
other already stay as they are. -/
theorem decode_lossless_tiling :
    (∀ body, (decode body).TilesBody body) ∧
      (∀ xs : List Instruction,
        (∀ i ∈ xs, i.opcode ∈ Opcode.table ∧ i.operand.Fits i.stop i.opcode.operand) →
          (decode (xs.flatMap Instruction.encode)).all = .ok (layOut 0 xs)) ∧
      ∀ xs stop, Tiles 0 xs stop → layOut 0 xs = xs := by
  refine ⟨tilesBody_decode, ?_, fun xs stop h => h.layOut_eq⟩
  intro xs h
  -- Moved next to each other they are still written as the same bytes, and now they tile.
  obtain ⟨stop, htiles⟩ := tiles_layOut h 0
  have hdecode := htiles.decodeFrom_append []
  rw [List.append_nil, flatMap_encode_layOut, decodeFrom_nil, List.append_nil] at hdecode
  rw [decode, hdecode]
  rfl

/-- A short load, a switch with one target eleven bytes before its end, and a return, at offsets
that do not fit together. -/
def scattered : List Instruction :=
  [⟨7, ⟨0x1F, "ldc.i4.s", .shortInt, .next⟩, .int (-1), 9⟩,
    ⟨20, ⟨0x45, "switch", .switch, .conditional⟩, .switch [18], 29⟩,
    ⟨3, ⟨0x2A, "ret", .none, .leave⟩, .none, 4⟩]

/-- The bytes of `scattered` decode to its instructions at the offsets 0, 2 and 11. -/
theorem decode_scattered :
    (decode [0x1F, 0xFF, 0x45, 1, 0, 0, 0, 0xF5, 0xFF, 0xFF, 0xFF, 0x2A]).all
      = .ok [⟨0, ⟨0x1F, "ldc.i4.s", .shortInt, .next⟩, .int (-1), 2⟩,
          ⟨2, ⟨0x45, "switch", .switch, .conditional⟩, .switch [0], 11⟩,
          ⟨11, ⟨0x2A, "ret", .none, .leave⟩, .none, 12⟩] := by
  have hbytes : scattered.flatMap Instruction.encode
      = [0x1F, 0xFF, 0x45, 1, 0, 0, 0, 0xF5, 0xFF, 0xFF, 0xFF, 0x2A] := by decide +kernel
  have hassigned : ∀ i ∈ scattered, i.opcode ∈ Opcode.table := by decide +kernel
  -- The target is eleven bytes before the end, wherever that is.
  have hfits : ∀ i ∈ scattered, i.operand.Fits i.stop i.opcode.operand := by
    refine List.forall_mem_cons.mpr ⟨?_, List.forall_mem_cons.mpr ⟨?_, ?_⟩⟩
    · change Signed 1 (-1)
      decide
    · change 1 < 2 ^ 32 ∧ ∀ t ∈ [(18 : Int)], Signed 4 (t - 29)
      decide
    · exact List.forall_mem_singleton.mpr trivial
  rw [← hbytes]
  exact decode_lossless_tiling.2.1 scattered fun i hi => ⟨hassigned i hi, hfits i hi⟩

end CilLint
