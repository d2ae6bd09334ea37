import CilLint.Proofs.Relocation
import Mathlib.Computability.Language

/-!
# The bytes of instructions

The scan of a body tells a few kinds of instructions apart: no-operations, accesses to a local,
branches that go nowhere, literals, returns. Each kind is a test on decoded instructions, and here it
is given a second time, as a set of words over bytes that does not mention the table of opcodes.
`Denotes` says that the two fit: the words are the bytes of the instructions of the kind, and of no
others (`Denotes.encode_mem_iff`).

An instruction is put together from an opcode and the bytes of its operand (`Instruction.ofParts`),
and every well-formed instruction is one of these (`WellFormed.exists_parts`). So to compare a test
with words it is enough to go through the table of opcodes, which is a finite check:

* `denotes_written` is for kinds that opcodes alone decide, whatever the operand;
* `SlotFamily.denotes` is for accesses to a given slot, which the opcode or the operand names;
* `denotes_jump` is for branches of length zero.
-/

namespace CilLint

/-! ### Instructions and their parts -/

/-- No two opcodes have the same bytes: both are what is read off them. The table need not be gone
through for this. -/
theorem Opcode.eq_of_encode_eq {o p : Opcode} (ho : o ∈ table) (hp : p ∈ table)
    (h : o.encode = p.encode) : o = p := by
  have hread : readOpcode 0 o.encode = .ok o :=
    readOpcode_eq_ok_iff.mpr ⟨ho, List.prefix_refl _⟩
  have hread' : readOpcode 0 o.encode = .ok p :=
    readOpcode_eq_ok_iff.mpr ⟨hp, h ▸ List.prefix_refl _⟩
  exact Except.ok.inj (hread.symm.trans hread')

namespace Instruction

variable {i j : Instruction} {o : Opcode} {operand : List UInt8}

/-- The same bytes at the same offset are the same instruction. This is why a set of words can stand
for a set of instructions at all. -/
theorem WellFormed.eq_of_encode_eq (hi : i.WellFormed) (hj : j.WellFormed)
    (hoffset : i.offset = j.offset) (hencode : i.encode = j.encode) : i = j := by
  have hone : decodeOne i.offset i.encode = .ok i :=
    decodeOne_eq_ok_iff.mpr ⟨rfl, hi, List.prefix_refl _⟩
  have hone' : decodeOne i.offset i.encode = .ok j :=
    decodeOne_eq_ok_iff.mpr ⟨hoffset.symm, hj, hencode ▸ List.prefix_refl _⟩
  exact Except.ok.inj (hone.symm.trans hone')

/-- The instruction with an opcode and the bytes of an operand. -/
def ofParts (offset : Nat) (o : Opcode) (operand : List UInt8) : Instruction where
  offset := offset
  opcode := o
  operand := .ofBytes o.operand (offset + o.size + operand.length) operand
  stop := offset + o.size + operand.length

/-- An instruction that is put together has the bytes it is put together from. They have to be as many
as the opcode admits, or other bytes would be written. -/
theorem encode_ofParts (hadmits : o.operand.Admits operand) (offset : Nat) :
    (ofParts offset o operand).encode = o.encode ++ operand :=
  congrArg (o.encode ++ ·) (Operand.encode_ofBytes hadmits _).1

/-- It is well-formed, whatever the bytes of its operand say, if the opcode admits an operand of their
length. -/
theorem wellFormed_ofParts (ho : o ∈ Opcode.table) (hadmits : o.operand.Admits operand)
    (offset : Nat) : (ofParts offset o operand).WellFormed := by
  obtain ⟨hencode, hfits⟩ :=
    Operand.encode_ofBytes hadmits (offset + o.size + operand.length)
  -- Where the instruction stops is stated with the number of operand bytes, and well-formedness
  -- wants the size of the operand; the two are the same.
  have hsize := Operand.length_encode hfits
  rw [hencode] at hsize
  refine ⟨ho, hfits, ?_⟩
  exact (Nat.add_assoc offset o.size operand.length).trans
    (congrArg (fun n => offset + (o.size + n)) hsize)

/-- **Every well-formed instruction is put together from its opcode and the bytes of its operand.** It
need not be taken apart: the one that is put together has the same bytes and so is the same. -/
theorem WellFormed.exists_parts (h : i.WellFormed) :
    ∃ operand, i.opcode.operand.Admits operand ∧ i = ofParts i.offset i.opcode operand ∧
      i.encode = i.opcode.encode ++ operand := by
  have hadmits := Operand.admits_encode h.fits
  refine ⟨i.operand.encode i.stop i.opcode.operand, hadmits, ?_, rfl⟩
  refine h.eq_of_encode_eq (wellFormed_ofParts h.assigned hadmits _) rfl ?_
  exact (encode_ofParts hadmits i.offset).symm

/-- The slot of an access with an operand is the number that the bytes of the operand write. -/
theorem slot?_ofParts (hkind : o.operand = .shortVar ∨ o.operand = .var) (offset : Nat) :
    (ofParts offset o operand).slot? = some (littleEndian operand) := by
  unfold slot? ofParts
  rcases hkind with hkind | hkind <;> rw [hkind] <;> rfl

end Instruction

/-- For most kinds of operands all that matters is their length. The exception is the table of a
`switch`. -/
theorem OperandKind.admits_iff_of_fixedLength {kind : OperandKind} {n : Nat} {bytes : List UInt8}
    (h : kind.fixedLength? = some n) : kind.Admits bytes ↔ bytes.length = n := by
  unfold Admits
  rw [h]

/-! ### Words and kinds -/

/-- **Words that denote a kind of instructions:** at every offset each word is an instruction of the
kind, and each instruction of the kind is written as a word. -/
structure Denotes (words : Language UInt8) (kind : Instruction → Prop) : Prop where
  exists_instruction : ∀ w ∈ words, ∀ offset, ∃ i : Instruction,
    i.WellFormed ∧ i.offset = offset ∧ i.encode = w ∧ kind i
  encode_mem : ∀ i : Instruction, i.WellFormed → kind i → i.encode ∈ words

/-- **Words and kinds fit.** From the two directions of `Denotes`: if the bytes of an instruction are
a word, there is an instruction of the kind with these bytes, and that can only be the same one. -/
theorem Denotes.encode_mem_iff {words : Language UInt8} {kind : Instruction → Prop}
    (h : Denotes words kind) {i : Instruction} (hi : i.WellFormed) : i.encode ∈ words ↔ kind i := by
  refine ⟨?_, h.encode_mem i hi⟩
  intro hmem
  -- The instruction of the word is taken at the offset of `i`, or it could not be `i`.
  obtain ⟨j, hj, hoffset, hencode, hkind⟩ := h.exists_instruction _ hmem i.offset
  rwa [hj.eq_of_encode_eq hi hoffset hencode] at hkind

/-- The words that begin in one of some ways and go on with a number of further bytes, which may be
any. -/
def written (forms : List (List UInt8 × Nat)) : Language UInt8 :=
  {w | ∃ form ∈ forms, ∃ operand : List UInt8, operand.length = form.2 ∧ w = form.1 ++ operand}

/-- A kind of opcodes, given by the bytes of the opcodes and the lengths of their operands. The two
hypotheses go through the forms and through the table of opcodes, so they can be decided. -/
theorem denotes_written {forms : List (List UInt8 × Nat)} (kind : Opcode → Bool)
    (hforms : ∀ form ∈ forms, ∃ o ∈ Opcode.table,
      kind o = true ∧ o.encode = form.1 ∧ o.operand.fixedLength? = some form.2)
    (hkind : ∀ o ∈ Opcode.table, kind o = true → ∃ form ∈ forms,
      o.encode = form.1 ∧ o.operand.fixedLength? = some form.2) :
    Denotes (written forms) fun i => kind i.opcode = true where
  -- A word is the bytes of an opcode of the kind and an operand of the right length, which may be
  -- any.
  exists_instruction := by
    rintro w ⟨form, hform, operand, hlength, rfl⟩ offset
    obtain ⟨o, ho, hk, hencode, hfixed⟩ := hforms form hform
    have hadmits := (OperandKind.admits_iff_of_fixedLength hfixed).mpr hlength
    refine ⟨.ofParts offset o operand, Instruction.wellFormed_ofParts ho hadmits offset, rfl, ?_, hk⟩
    rw [Instruction.encode_ofParts hadmits, hencode]
  -- And an instruction of the kind has an opcode with one of the forms.
  encode_mem := by
    intro i hi hk
    obtain ⟨form, hform, hencode, hfixed⟩ := hkind i.opcode hi.assigned hk
    obtain ⟨operand, hadmits, -, hbytes⟩ := hi.exists_parts
    refine ⟨form, hform, operand, ?_, ?_⟩
    · exact (OperandKind.admits_iff_of_fixedLength hfixed).mp hadmits
    · rw [hbytes, hencode]

namespace Word

/-- `nop`. -/
def nop : Language UInt8 := written [([0x00], 0)]

/-- `ret`. -/
def ret : Language UInt8 := written [([0x2A], 0)]

/-- `ldnull`. -/
def ldnull : Language UInt8 := written [([0x14], 0)]

/-- `initobj`, with a token. -/
def initobj : Language UInt8 := written [([0xFE, 0x15], 4)]

/-- `ret`, `endfinally` and `endfilter`. -/
def leave : Language UInt8 := written [([0x2A], 0), ([0xDC], 0), ([0xFE, 0x11], 0)]

/-- The loads of numbers, from `ldc.i4.m1` to `ldc.r8`, and of strings. -/
def literal : Language UInt8 := written [
  ([0x15], 0), ([0x16], 0), ([0x17], 0), ([0x18], 0), ([0x19], 0), ([0x1A], 0), ([0x1B], 0),
  ([0x1C], 0), ([0x1D], 0), ([0x1E], 0), ([0x1F], 1), ([0x20], 4), ([0x21], 8), ([0x22], 4),
  ([0x23], 8), ([0x72], 4)]

end Word

/-- The six kinds that opcodes alone decide. For each of them both finite checks of `denotes_written`
are left to evaluation, which goes through the whole table of opcodes. -/
theorem denotes_nop : Denotes Word.nop fun i => i.is Code.nop = true :=
  denotes_written (fun o => o.code == Code.nop) (by decide +kernel) (by decide +kernel)

theorem denotes_ret : Denotes Word.ret fun i => i.is Code.ret = true :=
  denotes_written (fun o => o.code == Code.ret) (by decide +kernel) (by decide +kernel)

theorem denotes_ldnull : Denotes Word.ldnull fun i => i.is Code.ldnull = true :=
  denotes_written (fun o => o.code == Code.ldnull) (by decide +kernel) (by decide +kernel)

theorem denotes_initobj : Denotes Word.initobj fun i => i.is Code.initobj = true :=
  denotes_written (fun o => o.code == Code.initobj) (by decide +kernel) (by decide +kernel)

/-- Returns are not known by one code but by their flow, which three opcodes have. -/
theorem denotes_leave : Denotes Word.leave fun i => (i.opcode.flow == .leave) = true :=
  denotes_written (fun o => o.flow == .leave) (by decide +kernel) (by decide +kernel)

/-- Literals are a range of codes, and one more. -/
theorem denotes_literal : Denotes Word.literal fun i => i.isLiteral = true :=
  denotes_written
    (fun o => (Code.ldcI4M1 ≤ o.code && o.code ≤ Code.ldcR8) || o.code == Code.ldstr)
    (by decide +kernel) (by decide +kernel)

/-! ### Accesses to locals -/

/-- The words for a local slot: the slot is part of the code if it is one of the first four and there
are `compact` codes for them, or it follows the bytes of a code and takes a number of bytes itself. -/
def slotForms (compact : Option UInt8) (forms : List (List UInt8 × Nat)) (slot : Nat) :
    Language UInt8 :=
  {w | (∃ first ∈ compact, slot < 4 ∧ w = [first + UInt8.ofNat slot]) ∨
    ∃ form ∈ forms, slot < 256 ^ form.2 ∧ w = form.1 ++ leBytes form.2 slot}

namespace Word

/-- `stloc.0` to `stloc.3`, `stloc.s` and `stloc`. -/
def stloc (slot : Nat) : Language UInt8 :=
  slotForms (some 0x0A) [([0x13], 1), ([0xFE, 0x0E], 2)] slot

/-- `ldloc.0` to `ldloc.3`, `ldloc.s` and `ldloc`. -/
def ldloc (slot : Nat) : Language UInt8 :=
  slotForms (some 0x06) [([0x11], 1), ([0xFE, 0x0C], 2)] slot

/-- `ldloca.s` and `ldloca`, which have no compact codes. -/
def ldloca (slot : Nat) : Language UInt8 := slotForms none [([0x12], 1), ([0xFE, 0x0D], 2)] slot

end Word

/-- What ties the words for slots to the function that gives the slot of an instruction. -/
structure SlotFamily (compact : Option UInt8) (forms : List (List UInt8 × Nat))
    (slotOf? : Instruction → Option Nat) : Prop where
  compact_mem : ∀ first ∈ compact, ∀ slot < 4, ∃ o ∈ Opcode.table,
    o.encode = [first + UInt8.ofNat slot] ∧ o.operand = .none
  forms_mem : ∀ form ∈ forms, ∃ o ∈ Opcode.table, o.encode = form.1 ∧
    (o.operand = .shortVar ∨ o.operand = .var) ∧ o.operand.fixedLength? = some form.2
  slotOf?_iff : ∀ i : Instruction, i.opcode ∈ Opcode.table → ∀ slot, slotOf? i = some slot ↔
    (∃ first ∈ compact, slot < 4 ∧ i.opcode.encode = [first + UInt8.ofNat slot]) ∨
      i.opcode.encode ∈ forms.map Prod.fst ∧ i.slot? = some slot

section Slots

variable {compact : Option UInt8} {forms : List (List UInt8 × Nat)}
  {slotOf? : Instruction → Option Nat}

/-- **The words for a slot denote the accesses to it.** A slot in the code leaves no room for an
operand, and otherwise the operand is the slot, in as many bytes as the form has. -/
theorem SlotFamily.denotes (h : SlotFamily compact forms slotOf?) (slot : Nat) :
    Denotes (slotForms compact forms slot) fun i => slotOf? i = some slot where
  exists_instruction := by
    rintro w (⟨first, hfirst, hlt, rfl⟩ | ⟨form, hform, hlt, rfl⟩) offset
    -- The slot is part of the code.
    · obtain ⟨o, ho, hencode, hnone⟩ := h.compact_mem first hfirst slot hlt
      have hadmits : o.operand.Admits [] := by
        rw [hnone]
        exact rfl
      refine ⟨_, Instruction.wellFormed_ofParts ho hadmits offset, rfl, ?_, ?_⟩
      · rw [Instruction.encode_ofParts hadmits, hencode, List.append_nil]
      · exact (h.slotOf?_iff _ ho slot).mpr (.inl ⟨first, hfirst, hlt, hencode⟩)
    -- The slot follows the code, and it is small enough to be read back from its bytes.
    · obtain ⟨o, ho, hencode, hkind, hfixed⟩ := h.forms_mem form hform
      have hadmits : o.operand.Admits (leBytes form.2 slot) :=
        (OperandKind.admits_iff_of_fixedLength hfixed).mpr (length_leBytes _ _)
      refine ⟨_, Instruction.wellFormed_ofParts ho hadmits offset, rfl, ?_, ?_⟩
      · rw [Instruction.encode_ofParts hadmits, hencode]
      · refine (h.slotOf?_iff _ ho slot).mpr (.inr ⟨hencode ▸ List.mem_map_of_mem hform, ?_⟩)
        rw [Instruction.slot?_ofParts hkind, littleEndian_leBytes hlt]
  encode_mem := by
    intro i hi hslot
    obtain ⟨operand, hadmits, hparts, hbytes⟩ := hi.exists_parts
    rcases (h.slotOf?_iff i hi.assigned slot).mp hslot with
      ⟨first, hfirst, hlt, hencode⟩ | ⟨hencode, hvar⟩
    · -- No other opcode has these bytes, so there is no operand.
      obtain ⟨o, ho, hencode', hnone⟩ := h.compact_mem first hfirst slot hlt
      have hopcode := Opcode.eq_of_encode_eq hi.assigned ho (hencode.trans hencode'.symm)
      rw [hopcode, hnone] at hadmits
      obtain rfl : operand = [] := List.length_eq_zero_iff.mp hadmits
      exact .inl ⟨first, hfirst, hlt, by rw [hbytes, hencode, List.append_nil]⟩
    · -- The operand is the slot.
      obtain ⟨form, hform, hencode⟩ := List.mem_map.mp hencode
      obtain ⟨o, ho, hencode', hkind, hfixed⟩ := h.forms_mem form hform
      have hopcode := Opcode.eq_of_encode_eq hi.assigned ho (hencode.symm.trans hencode'.symm)
      rw [hparts, Instruction.slot?_ofParts (hopcode ▸ hkind)] at hvar
      obtain rfl := Option.some.inj hvar
      have hlength := (OperandKind.admits_iff_of_fixedLength (hopcode ▸ hfixed)).mp hadmits
      refine .inr ⟨form, hform, littleEndian_lt hlength, ?_⟩
      rw [hbytes, ← hencode, leBytes_littleEndian hlength]

/-- A family with compact codes for the first four slots, and two more codes. The hypotheses are what
is asked of the table of opcodes: that the range from `first` to `last` has the compact codes and
nothing else, that the forms are there, and that their codes are outside the range. -/
theorem slotFamily_of_codes {lowest : UInt8} {first last short long : UInt16}
    (hslot : ∀ i : Instruction, slotOf? i
      = if first ≤ i.opcode.code ∧ i.opcode.code ≤ last then some (i.opcode.code - first).toNat
        else if i.is short || i.is long then i.slot? else none)
    (hcompact : ∀ slot < 4, ∃ o ∈ Opcode.table, o.encode = [lowest + UInt8.ofNat slot] ∧
      o.operand = .none ∧ (first ≤ o.code ∧ o.code ≤ last) ∧ (o.code - first).toNat = slot)
    (hrange : ∀ o ∈ Opcode.table, first ≤ o.code ∧ o.code ≤ last →
      (o.code - first).toNat < 4 ∧ o.encode = [lowest + UInt8.ofNat (o.code - first).toNat])
    (hforms : ∀ form ∈ forms, ∃ o ∈ Opcode.table, o.encode = form.1 ∧
      (o.operand = .shortVar ∨ o.operand = .var) ∧ o.operand.fixedLength? = some form.2)
    (hcodes : ∀ o ∈ Opcode.table,
      (o.encode ∈ forms.map Prod.fst ↔ o.code = short ∨ o.code = long) ∧
        (o.code = short ∨ o.code = long → ¬ (first ≤ o.code ∧ o.code ≤ last))) :
    SlotFamily (some lowest) forms slotOf? where
  compact_mem := by
    intro c hc slot hlt
    obtain rfl := Option.some.inj hc
    obtain ⟨o, ho, hencode, hnone, -⟩ := hcompact slot hlt
    exact ⟨o, ho, hencode, hnone⟩
  forms_mem := hforms
  slotOf?_iff := by
    intro i hi slot
    obtain ⟨hcode, hdisjoint⟩ := hcodes i.opcode hi
    rw [hslot, hcode]
    simp only [Option.mem_some_iff, exists_eq_left']
    -- The function asks first whether the code is in the range, so this is how the cases fall.
    by_cases hin : first ≤ i.opcode.code ∧ i.opcode.code ≤ last
    · have hother : ¬ (i.opcode.code = short ∨ i.opcode.code = long) := fun h => hdisjoint h hin
      obtain ⟨hlt, hencode⟩ := hrange i.opcode hi hin
      rw [if_pos hin, Option.some.injEq]
      refine ⟨?_, ?_⟩
      · rintro rfl
        exact .inl ⟨hlt, hencode⟩
      · rintro (⟨hlt', hencode'⟩ | ⟨hcode', -⟩)
        · obtain ⟨o, ho, ho', -, -, hvalue⟩ := hcompact slot hlt'
          rwa [Opcode.eq_of_encode_eq hi ho (hencode'.trans ho'.symm)]
        · exact absurd hcode' hother
    -- A code with the bytes of a compact one would be in the range.
    · have hcompact' : ¬ (slot < 4 ∧ i.opcode.encode = [lowest + UInt8.ofNat slot]) := by
        rintro ⟨hlt, hencode⟩
        obtain ⟨o, ho, ho', -, hin', -⟩ := hcompact slot hlt
        rw [Opcode.eq_of_encode_eq hi ho (hencode.trans ho'.symm)] at hin
        exact hin hin'
      rw [if_neg hin, or_iff_right hcompact']
      simp only [Instruction.is, Bool.or_eq_true, beq_iff_eq]
      split_ifs with hother <;> simp [hother]

end Slots

/-- The words for stores into a local are those of `stloc` in all its forms. The hypotheses about the
table of opcodes are decided by going through it. -/
theorem denotes_stloc (slot : Nat) :
    Denotes (Word.stloc slot) fun i => i.storedLocal? = some slot := by
  refine (slotFamily_of_codes (fun _ => rfl) ?_ ?_ ?_ ?_).denotes slot <;> decide +kernel

/-- The same for loads, which have the same forms with other codes. -/
theorem denotes_ldloc (slot : Nat) :
    Denotes (Word.ldloc slot) fun i => i.loadedLocal? = some slot := by
  refine (slotFamily_of_codes (fun _ => rfl) ?_ ?_ ?_ ?_).denotes slot <;> decide +kernel

/-- The same for addresses. There are no compact codes, so `slotFamily_of_codes` is not of use. -/
theorem denotes_ldloca (slot : Nat) :
    Denotes (Word.ldloca slot) fun i => i.addressedLocal? = some slot := by
  refine SlotFamily.denotes ⟨by simp, by decide +kernel, ?_⟩ slot
  intro i hi slot
  have hcodes : ∀ o ∈ Opcode.table, (o.encode ∈ [([0x12], 1), ([0xFE, 0x0D], 2)].map Prod.fst ↔
      o.code = Code.ldlocaS ∨ o.code = Code.ldloca) := by decide +kernel
  rw [Instruction.addressedLocal?, hcodes _ hi]
  simp only [Instruction.is, Bool.or_eq_true, beq_iff_eq, Option.not_mem_none, false_and,
    exists_false, false_or]
  split_ifs with hcode <;> simp [hcode]

/-! ### Branches that go nowhere -/

/-- Whether an instruction branches to the one right after it, whatever happens. -/
def Instruction.fallsThrough (i : Instruction) : Bool :=
  (i.is Code.brS || i.is Code.br) && i.target? == some (i.stop : Int)

/-- `br.s` and `br` of distance zero. -/
def Word.jump : Language UInt8 := {[0x2B, 0x00], [0x38, 0x00, 0x00, 0x00, 0x00]}

/-- The two kinds of branches with a distance of their own. -/
theorem target?_ofParts {offset : Nat} {o : Opcode} {operand : List UInt8}
    (h : o.operand = .shortBranch ∨ o.operand = .branch) :
    (Instruction.ofParts offset o operand).target?
      = some ((Instruction.ofParts offset o operand).stop + signedLittleEndian operand) := by
  unfold Instruction.target? Instruction.ofParts
  rcases h with h | h <;> rw [h] <;> rfl

theorem eq_zeros_of_signedLittleEndian {w : Nat} {bytes : List UInt8} (hlength : bytes.length = w)
    (h : signedLittleEndian bytes = 0) : bytes = signedBytes w 0 := by
  rw [← h, signedBytes_signedLittleEndian hlength]

/-- **The words of length-zero branches denote the branches that go nowhere.** A branch goes nowhere
if its target is where it stops, and since targets are counted from there, that is to say its distance
is zero. -/
theorem denotes_jump : Denotes Word.jump fun i => i.fallsThrough = true where
  exists_instruction := by
    intro w hw offset
    -- Both words are an opcode and an operand that writes zero; the rest is the same for the two.
    have hparts : ∃ o ∈ Opcode.table, ∃ operand, o.operand.Admits operand ∧
        w = o.encode ++ operand ∧ (o.operand = .shortBranch ∨ o.operand = .branch) ∧
        (o.code = Code.brS ∨ o.code = Code.br) ∧ signedLittleEndian operand = 0 := by
      rcases hw with rfl | rfl
      · exact ⟨⟨0x2B, "br.s", .shortBranch, .branch⟩, by decide +kernel, [0x00], rfl, rfl, .inl rfl,
          .inl rfl, by decide⟩
      · exact ⟨⟨0x38, "br", .branch, .branch⟩, by decide +kernel, [0x00, 0x00, 0x00, 0x00], rfl, rfl,
          .inr rfl, .inr rfl, by decide⟩
    obtain ⟨o, ho, operand, hadmits, rfl, hkind, hcode, hzero⟩ := hparts
    refine ⟨.ofParts offset o operand, Instruction.wellFormed_ofParts ho hadmits offset, rfl,
      Instruction.encode_ofParts hadmits offset, ?_⟩
    have hbranch : ((Instruction.ofParts offset o operand).is Code.brS ||
        (Instruction.ofParts offset o operand).is Code.br) = true := by
      simpa [Instruction.is, Instruction.ofParts] using hcode
    rw [Instruction.fallsThrough, hbranch, target?_ofParts hkind, hzero, add_zero]
    exact beq_self_eq_true _
  encode_mem := by
    intro i hi hfalls
    obtain ⟨operand, hadmits, hparts, hbytes⟩ := hi.exists_parts
    simp only [Instruction.fallsThrough, Instruction.is, Bool.and_eq_true, Bool.or_eq_true,
      beq_iff_eq] at hfalls
    obtain ⟨hcode, htarget⟩ := hfalls
    -- Each of the two codes belongs to one opcode, so the kind of its operand and its bytes are
    -- known.
    have hkind : ∀ o ∈ Opcode.table, o.code = Code.brS ∨ o.code = Code.br →
        (o.operand = .shortBranch ∧ o.encode = [0x2B]) ∨ (o.operand = .branch ∧ o.encode = [0x38]) := by
      decide +kernel
    have hbranch := hkind i.opcode hi.assigned hcode
    rw [hparts, target?_ofParts (hbranch.imp And.left And.left), Option.some.injEq,
      add_eq_left] at htarget
    rcases hbranch with ⟨hkind, hencode⟩ | ⟨hkind, hencode⟩ <;> rw [hkind] at hadmits
    · refine .inl ?_
      rw [hbytes, hencode, eq_zeros_of_signedLittleEndian hadmits htarget]
      rfl
    · refine .inr ?_
      rw [hbytes, hencode, eq_zeros_of_signedLittleEndian hadmits htarget]
      rfl

end CilLint
