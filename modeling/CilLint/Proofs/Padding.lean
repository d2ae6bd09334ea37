import CilLint.Proofs.Words

/-!
# Padding

What `significant` drops, as bytes and as instructions. `Word.padding` has the bytes of a no-operation
and of the return shuttles: a store to a slot, a branch of length zero, and a load of the same slot.
`Pad` has the instructions, and the two fit:

* `exists_pad` — the words of `Word.padding` are read as instructions of `Pad`, at every offset;
* `encode_mem_shuttle` — three instructions of a body that are a shuttle are written as such a word.
  The branch of a shuttle goes to the load, and in a body the load is what stands right after it, so
  this is a branch of length zero.

A pad in front of other instructions changes nothing about what is significant
(`Pad.significant_append`), and bytes in front of a body only shift it (`Tiles.decode_append`).
-/

namespace CilLint

/-! ### What is dropped -/

/-- Whether a list starts with a shuttle is up to its first three instructions. The load has to be
where the branch goes, and of the slot that was stored to. -/
theorem isShuttle_cons_iff {store jump load : Instruction} {rest : List Instruction} :
    isShuttle (store :: jump :: load :: rest) = true ↔
      ∃ slot, store.storedLocal? = some slot ∧ (jump.is Code.brS || jump.is Code.br) = true ∧
        jump.target? = some (load.offset : Int) ∧ load.loadedLocal? = some slot := by
  cases hstore : store.storedLocal? with
  | none => simp [isShuttle, hstore]
  | some slot => simp [isShuttle, hstore, and_assoc]

/-- A list that starts with a shuttle has at least three instructions. -/
theorem exists_of_isShuttle {is : List Instruction} (h : isShuttle is = true) :
    ∃ store jump load rest, is = store :: jump :: load :: rest := by
  match is with
  | [] | [_] | [_, _] => exact absurd h Bool.false_ne_true
  | store :: jump :: load :: rest => exact ⟨store, jump, load, rest, rfl⟩

/-- Between instructions that lie next to each other the branch of a shuttle goes nowhere: it goes to
the load, and this is the next instruction anyway. -/
theorem isShuttle_iff_fallsThrough {store jump load : Instruction} (rest : List Instruction)
    (h : jump.stop = load.offset) :
    isShuttle (store :: jump :: load :: rest) = true ↔
      ∃ slot, store.storedLocal? = some slot ∧ jump.fallsThrough = true ∧
        load.loadedLocal? = some slot := by
  rw [isShuttle_cons_iff]
  simp only [Instruction.fallsThrough, Bool.and_eq_true, beq_iff_eq, h, and_assoc]

/-- Significant instructions are instructions, in their order. The scan only drops some. -/
theorem significant_sublist (is : List Instruction) : (significant is).Sublist is := by
  induction is using significant.induct with
  | case1 => simp [significant]
  | case2 i rest hnop ih =>
    rw [significant, if_pos hnop]
    exact .cons i ih
  | case3 i rest hnop hshuttle ih =>
    rw [significant, if_neg hnop, if_pos hshuttle]
    exact .cons i (ih.trans (List.drop_sublist 2 rest))
  | case4 i rest hnop hshuttle ih =>
    rw [significant, if_neg hnop, if_neg hshuttle]
    exact .cons_cons i ih

/-- The instructions of a no-operation or of a shuttle. -/
inductive Pad : List Instruction → Prop where
  | nop {i : Instruction} (h : i.is Code.nop = true) : Pad [i]
  | shuttle {store jump load : Instruction} (h : isShuttle [store, jump, load] = true) :
      Pad [store, jump, load]

/-- A store is no no-operation. The scan asks for those first, so a shuttle gets to its own test. -/
theorem Instruction.is_nop_of_storedLocal? {i : Instruction} {slot : Nat}
    (h : i.storedLocal? = some slot) : i.is Code.nop = false := by
  by_contra hnop
  have hcode : i.opcode.code = Code.nop := by simpa [is] using hnop
  simp [storedLocal?, is, hcode, Code.nop, Code.stloc0, Code.stloc3, Code.stlocS, Code.stloc] at h

/-- **A pad changes nothing about what is significant after it.** The scan drops it and goes on with
the rest. -/
theorem Pad.significant_append {pad : List Instruction} (h : Pad pad) (rest : List Instruction) :
    significant (pad ++ rest) = significant rest := by
  cases h with
  | nop hnop => rw [List.singleton_append, significant, if_pos hnop]
  | @shuttle store jump load hshuttle =>
    obtain ⟨slot, hstore, hothers⟩ := isShuttle_cons_iff.mp hshuttle
    have hnop : ¬ store.is Code.nop = true := by
      rw [Instruction.is_nop_of_storedLocal? hstore]
      exact Bool.false_ne_true
    have hwhole : isShuttle (store :: jump :: load :: rest) = true :=
      isShuttle_cons_iff.mpr ⟨slot, hstore, hothers⟩
    -- The scan goes on behind the load.
    change significant (store :: jump :: load :: rest) = _
    rw [significant, if_neg hnop, if_pos hwhole]
    rfl

/-- Whether an opcode is that of a no-operation or of a store to a local. -/
def Opcode.opensPad (o : Opcode) : Bool :=
  o.code == Code.nop || (Code.stloc0 ≤ o.code && o.code ≤ Code.stloc3) ||
    o.code == Code.stlocS || o.code == Code.stloc

/-- What opens no pad is no store, and a store opens a pad. -/
theorem Instruction.storedLocal?_of_opensPad {i : Instruction} (h : i.opcode.opensPad = false) :
    i.storedLocal? = none := by
  simp only [Opcode.opensPad, Bool.or_eq_false_iff, Bool.and_eq_false_iff,
    decide_eq_false_iff_not, beq_eq_false_iff_ne] at h
  obtain ⟨⟨⟨-, hrange⟩, hshort⟩, hlong⟩ := h
  rw [storedLocal?, if_neg (not_and_or.mpr hrange), if_neg (by simp [is, hshort, hlong])]

theorem Instruction.opensPad_of_storedLocal? {i : Instruction} {slot : Nat}
    (h : i.storedLocal? = some slot) : i.opcode.opensPad = true := by
  by_contra hopens
  rw [storedLocal?_of_opensPad (Bool.eq_false_iff.mpr hopens)] at h
  contradiction

/-- Whether an opcode is that of a load of a local. -/
def Opcode.loadsLocal (o : Opcode) : Bool :=
  (Code.ldloc0 ≤ o.code && o.code ≤ Code.ldloc3) || o.code == Code.ldlocS || o.code == Code.ldloc

/-- A load is one of the six opcodes that load a local. -/
theorem Instruction.loadsLocal_of_loadedLocal? {i : Instruction} {slot : Nat}
    (h : i.loadedLocal? = some slot) : i.opcode.loadsLocal = true := by
  by_contra hcode
  simp only [Opcode.loadsLocal, Bool.or_eq_true, Bool.and_eq_true, decide_eq_true_eq, not_or] at hcode
  obtain ⟨⟨hrange, hshort⟩, hlong⟩ := hcode
  have hcode : ¬ (i.is Code.ldlocS || i.is Code.ldloc) = true := by
    rw [Bool.or_eq_true]
    exact not_or.mpr ⟨hshort, hlong⟩
  rw [loadedLocal?, if_neg hrange, if_neg hcode] at h
  contradiction

/-- Only what opens a pad can be dropped from the front. Anything else is kept, and the scan goes on
behind it. -/
theorem significant_cons_of_opensPad {i : Instruction} (h : i.opcode.opensPad = false)
    (rest : List Instruction) : significant (i :: rest) = i :: significant rest := by
  have hnop : ¬ i.is Code.nop = true := by
    intro hnop
    have hopens : i.opcode.opensPad = true := by
      rw [Opcode.opensPad, show (i.opcode.code == Code.nop) = true from hnop]
      rfl
    exact Bool.false_ne_true (h.symm.trans hopens)
  -- A shuttle begins with a store, and a store opens a pad.
  have hshuttle : ¬ isShuttle (i :: rest) = true := by
    intro hshuttle
    obtain ⟨store, jump, load, after, heq⟩ := exists_of_isShuttle hshuttle
    rw [heq] at hshuttle
    obtain ⟨slot, hslot, -⟩ := isShuttle_cons_iff.mp hshuttle
    rw [← (List.cons.inj heq).1, Instruction.storedLocal?_of_opensPad h] at hslot
    contradiction
  rw [significant, if_neg hnop, if_neg hshuttle]

/-! ### The bytes of padding -/

/-- A store to a slot, a branch of length zero and a load of the slot, each in any of its forms. -/
def Word.shuttle : Language UInt8 := {w | ∃ slot, w ∈ stloc slot * jump * ldloc slot}

/-- A no-operation or a shuttle. -/
def Word.padding : Language UInt8 := nop + shuttle

/-- A no-operation is read as such wherever it stands. It is one byte, and its offset is the only
thing about it that changes. -/
theorem exists_nop {w : List UInt8} (hw : w ∈ Word.nop) (offset : Nat) :
    ∃ i : Instruction, i.is Code.nop = true ∧ Tiles offset [i] (offset + w.length) ∧
      [i].flatMap Instruction.encode = w := by
  obtain ⟨i, hi, rfl, rfl, hnop⟩ := denotes_nop.exists_instruction w hw offset
  have hstop : i.offset + i.encode.length = i.stop := by rw [hi.length_encode, hi.stop_eq]
  exact ⟨i, hnop, hstop ▸ .cons hi (.nil _), by simp⟩

/-- The bytes of a shuttle are read as a shuttle wherever they stand. The branch is relative, so its
target moves along with the load. -/
theorem exists_shuttle {w : List UInt8} (hw : w ∈ Word.shuttle) (offset : Nat) :
    ∃ store jump load : Instruction, isShuttle [store, jump, load] = true ∧
      Tiles offset [store, jump, load] (offset + w.length) ∧
      [store, jump, load].flatMap Instruction.encode = w := by
  obtain ⟨slot, first, ⟨u, hu, v, hv, rfl⟩, z, hz, rfl⟩ := hw
  -- The three words are read one after another, each where the one before it stops.
  obtain ⟨store, hstore, hstart, hbytes, hslot⟩ :=
    (denotes_stloc slot).exists_instruction u hu offset
  obtain ⟨jump, hjump, hnext, hbytes', hfalls⟩ := denotes_jump.exists_instruction v hv store.stop
  obtain ⟨load, hload, hlast, hbytes'', hslot'⟩ :=
    (denotes_ldloc slot).exists_instruction z hz jump.stop
  have htiles : Tiles offset [store, jump, load] load.stop := by
    rw [← hstart]
    refine .cons hstore ?_
    rw [← hnext]
    refine .cons hjump ?_
    rw [← hlast]
    exact .cons hload (.nil _)
  have hwritten : [store, jump, load].flatMap Instruction.encode = u ++ v ++ z := by
    simp [hbytes, hbytes', hbytes'']
  -- The load begins where the branch of length zero stops, and this is where it goes.
  refine ⟨store, jump, load, ?_, ?_, hwritten⟩
  · exact (isShuttle_iff_fallsThrough [] hlast.symm).mpr ⟨slot, hslot, hfalls, hslot'⟩
  · have hstop := htiles.length_encode
    rw [hwritten] at hstop
    exact hstop ▸ htiles

/-- **The bytes of padding are read as a pad,** at every offset. They are read to their last byte, so
that whatever follows begins a new instruction. -/
theorem exists_pad {w : List UInt8} (hw : w ∈ Word.padding) (offset : Nat) :
    ∃ pad, Pad pad ∧ Tiles offset pad (offset + w.length) ∧ pad.flatMap Instruction.encode = w := by
  rcases hw with hw | hw
  · obtain ⟨i, hnop, hrest⟩ := exists_nop hw offset
    exact ⟨[i], .nop hnop, hrest⟩
  · obtain ⟨store, jump, load, hshuttle, hrest⟩ := exists_shuttle hw offset
    exact ⟨[store, jump, load], .shuttle hshuttle, hrest⟩

/-- **A shuttle of a body is written as one,** since in a body its load begins where the branch
stops. -/
theorem encode_mem_shuttle {start stop : Nat} {store jump load : Instruction}
    {rest : List Instruction} (htiles : Tiles start (store :: jump :: load :: rest) stop)
    (h : isShuttle (store :: jump :: load :: rest) = true) :
    store.encode ++ jump.encode ++ load.encode ∈ Word.shuttle := by
  have hwf := htiles.wellFormed
  have hadjacent : jump.stop = load.offset := by
    have hchain := htiles.isChain
    simp only [List.isChain_cons_cons] at hchain
    exact hchain.2.1
  obtain ⟨slot, hstore, hjump, hload⟩ := (isShuttle_iff_fallsThrough rest hadjacent).mp h
  -- Each of the three is written as one of the words for what it does.
  refine ⟨slot, Language.append_mem_mul (Language.append_mem_mul ?_ ?_) ?_⟩
  · exact (denotes_stloc slot).encode_mem store (hwf store (by simp)) hstore
  · exact denotes_jump.encode_mem jump (hwf jump (by simp)) hjump
  · exact (denotes_ldloc slot).encode_mem load (hwf load (by simp)) hload

/-! ### Bytes in front of a body -/

/-- Tilings that meet make one tiling, and a tiling can be cut between any two of its instructions. -/
theorem Tiles.append {start mid stop : Nat} {xs ys : List Instruction} (hxs : Tiles start xs mid)
    (hys : Tiles mid ys stop) : Tiles start (xs ++ ys) stop := by
  induction hxs with
  | nil => exact hys
  | cons h hrest ih => exact .cons h (ih hys)

theorem Tiles.exists_mid {start stop : Nat} {xs ys : List Instruction}
    (h : Tiles start (xs ++ ys) stop) : ∃ mid, Tiles start xs mid ∧ Tiles mid ys stop := by
  induction xs generalizing start with
  | nil => exact ⟨start, .nil start, h⟩
  | cons i xs ih =>
    obtain _ | ⟨hi, hrest⟩ := h
    obtain ⟨mid, hxs, hys⟩ := ih hrest
    exact ⟨mid, .cons hi hxs, hys⟩

/-- The instructions of a body tile it, up to the fault if there is one. The rest are the bytes that
could not be read. -/
theorem exists_tiles_decode (body : List UInt8) :
    ∃ stop rest, Tiles 0 (decode body).instructions stop ∧
      body = (decode body).instructions.flatMap Instruction.encode ++ rest ∧
      ((decode body).error = none → rest = []) := by
  obtain ⟨stop, rest, htiles, hbody, hdone, -⟩ := (decodes_decodeFrom 0 body).exists_rest
  exact ⟨stop, rest, htiles, hbody, hdone⟩

/-- **Bytes in front of a body shift it:** after the instructions they are read as come those of the
body, shifted. A fault is shifted in the same way. -/
theorem Tiles.decode_append {xs : List Instruction} {stop : Nat} (h : Tiles 0 xs stop)
    (body : List UInt8) :
    decode (xs.flatMap Instruction.encode ++ body)
      = ⟨xs ++ (decode body).instructions.map (Instruction.shift stop),
          (decode body).error.map (DecodeError.shift stop)⟩ := by
  have hshift := decodeFrom_add 0 stop body
  rw [Nat.zero_add] at hshift
  rw [decode, h.decodeFrom_append, hshift]
  rfl

end CilLint
