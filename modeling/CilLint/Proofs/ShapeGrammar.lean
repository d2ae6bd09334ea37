import CilLint.Proofs.Padding
import Mathlib.Order.CompletePartialOrder

/-!
# The shapes of bodies as grammars

Three tests on the significant instructions of a body make up its profile: whether it does nothing,
returns a literal, or returns a default. Here each is given as a regular language over bytes, in which
padding may stand anywhere between the instructions that matter.

`keeping Ks` has the bodies that decode to their end and whose significant instructions are written as
words of the languages `Ks`, one each. `spaced Ks` is the regular language of the same words with
padding around them. They are the same (`keeping_eq_spaced`):

* from instructions to bytes, by induction along the scan (`flatMap_encode_mem_spaced`);
* from bytes to instructions, by induction over `Ks`, with the laws of the star for the padding in
  between.
-/

namespace CilLint

open scoped Computability

open Word (padding)

/-- Instructions that are written as words of the languages given, one each. -/
def Spells (is : List Instruction) (Ks : List (Language UInt8)) : Prop :=
  List.Forall₂ (fun i K => i.encode ∈ K) is Ks

/-- The bodies that decode to their end and whose significant instructions are words of the languages
given, one each. -/
def keeping (Ks : List (Language UInt8)) : Language UInt8 :=
  {body | (decode body).error = none ∧ Spells (significant (decode body).instructions) Ks}

/-- One word of each of the languages, with padding before, between and after them. -/
def spaced : List (Language UInt8) → Language UInt8
  | [] => padding∗
  | K :: Ks => padding∗ * (K * spaced Ks)

/-- A language whose words are single instructions that open no pad. -/
def Solid (K : Language UInt8) : Prop :=
  ∀ w ∈ K, ∃ i : Instruction, i.WellFormed ∧ i.offset = 0 ∧ i.encode = w ∧
    i.opcode.opensPad = false

/-! ### From instructions to bytes -/

/-- Padding in front is taken up by the star that stands there, whatever comes next. -/
theorem padding_mul_spaced_le (Ks : List (Language UInt8)) : padding * spaced Ks ≤ spaced Ks := by
  cases Ks with
  | nil => exact mul_kstar_le_kstar
  | cons K Ks =>
    calc padding * (padding∗ * (K * spaced Ks)) = padding * padding∗ * (K * spaced Ks) := by
          rw [mul_assoc]
      _ ≤ padding∗ * (K * spaced Ks) := mul_le_mul_left mul_kstar_le_kstar _

/-- A word may stand at the front without padding. -/
theorem mul_spaced_le (K : Language UInt8) (Ks : List (Language UInt8)) :
    K * spaced Ks ≤ spaced (K :: Ks) := by
  calc K * spaced Ks = 1 * (K * spaced Ks) := (one_mul _).symm
    _ ≤ padding∗ * (K * spaced Ks) := mul_le_mul_left one_le_kstar _

/-- Instructions whose significant ones are words of some languages are written as these words, with
padding between them. They have to lie next to each other, or a shuttle would not be one in bytes. -/
theorem flatMap_encode_mem_spaced {start stop : Nat} {is : List Instruction}
    {Ks : List (Language UInt8)} (htiles : Tiles start is stop)
    (h : Spells (significant is) Ks) :
    is.flatMap Instruction.encode ∈ spaced Ks := by
  -- The induction follows the scan: what it drops is padding, what it keeps is the next word.
  induction is using significant.induct generalizing start Ks with
  | case1 =>
    rw [significant] at h
    cases h
    exact Language.nil_mem_kstar _
  | case2 i rest hnop ih =>
    rw [significant, if_pos hnop] at h
    obtain _ | ⟨hi, hrest⟩ := htiles
    have hword : i.encode ∈ padding := .inl (denotes_nop.encode_mem i hi hnop)
    exact padding_mul_spaced_le Ks (Language.append_mem_mul hword (ih hrest h))
  | case3 i rest hnop hshuttle ih =>
    rw [significant, if_neg hnop, if_pos hshuttle] at h
    obtain ⟨store, jump, load, after, heq⟩ := exists_of_isShuttle hshuttle
    obtain ⟨rfl, rfl⟩ := List.cons.inj heq
    have hword : i.encode ++ jump.encode ++ load.encode ∈ padding :=
      .inr (encode_mem_shuttle htiles hshuttle)
    -- The scan goes on behind the three instructions, so the tiling is cut there.
    change Tiles start ([i, jump, load] ++ after) stop at htiles
    obtain ⟨mid, -, hafter⟩ := htiles.exists_mid
    have hmem : i.encode ++ jump.encode ++ load.encode ++ after.flatMap Instruction.encode
        ∈ spaced Ks := padding_mul_spaced_le Ks (Language.append_mem_mul hword (ih hafter h))
    simpa using hmem
  | case4 i rest hnop hshuttle ih =>
    rw [significant, if_neg hnop, if_neg hshuttle] at h
    obtain _ | ⟨hword, hwords⟩ := h
    obtain _ | ⟨-, hrest⟩ := htiles
    exact mul_spaced_le _ _ (Language.append_mem_mul hword (ih hrest hwords))

/-- **From instructions to bytes.** The body decodes to its end, so there are no bytes but those of
its instructions. -/
theorem keeping_le_spaced (Ks : List (Language UInt8)) : keeping Ks ≤ spaced Ks := by
  rintro body ⟨hwhole, hwords⟩
  obtain ⟨stop, rest, htiles, hbody, hdone⟩ := exists_tiles_decode body
  rw [hdone hwhole, List.append_nil] at hbody
  rw [hbody]
  exact flatMap_encode_mem_spaced htiles hwords

/-! ### From bytes to instructions -/

/-- Shifting does not change how instructions are written. -/
theorem spells_map_shift {distance : Nat} {is : List Instruction}
    {Ks : List (Language UInt8)} :
    Spells (is.map (Instruction.shift distance)) Ks ↔ Spells is Ks := by
  simp only [Spells, List.forall₂_map_left_iff, Instruction.encode_shift]

/-- Padding in front of a body changes nothing about what the body keeps. The pad is dropped by the
scan, and the rest is only shifted. -/
theorem padding_mul_keeping_le (Ks : List (Language UInt8)) : padding * keeping Ks ≤ keeping Ks := by
  rintro _ ⟨w, hw, body, ⟨hwhole, hwords⟩, rfl⟩
  obtain ⟨pad, hpad, htiles, rfl⟩ := exists_pad hw 0
  have hdecode := htiles.decode_append body
  refine ⟨?_, ?_⟩
  · rw [hdecode, hwhole]
    rfl
  · rw [hdecode, hpad.significant_append, significant_map_shift]
    exact spells_map_shift.mpr hwords

/-- A solid word in front of a body is one more instruction that it keeps. Were it to open a pad, then
it might make a shuttle with what follows. -/
theorem mul_keeping_le {K : Language UInt8} (hK : Solid K) (Ks : List (Language UInt8)) :
    K * keeping Ks ≤ keeping (K :: Ks) := by
  rintro _ ⟨w, hw, body, ⟨hwhole, hwords⟩, rfl⟩
  obtain ⟨i, hi, hoffset, rfl, hopens⟩ := hK w hw
  have htiles : Tiles 0 [i] i.stop := hoffset ▸ .cons hi (.nil _)
  have hdecode := htiles.decode_append body
  rw [List.flatMap_singleton] at hdecode
  refine ⟨?_, ?_⟩
  · rw [hdecode, hwhole]
    rfl
  -- The instruction is kept, and the rest of the body is the same but for its place.
  · rw [hdecode, List.singleton_append, significant_cons_of_opensPad hopens, significant_map_shift]
    exact .cons hw (spells_map_shift.mpr hwords)

/-- The empty body keeps nothing. -/
theorem one_le_keeping : 1 ≤ keeping [] := by
  rintro body rfl
  have hdecode : decode [] = ⟨[], none⟩ := decodeFrom_nil 0
  refine ⟨by rw [hdecode], ?_⟩
  rw [hdecode, significant]
  exact .nil

/-- **From bytes to instructions.** The star is dealt with by its induction rule: what padding in
front does not change, any number of pads does not change. -/
theorem spaced_le_keeping {Ks : List (Language UInt8)} (hKs : ∀ K ∈ Ks, Solid K) :
    spaced Ks ≤ keeping Ks := by
  induction Ks with
  | nil =>
    calc padding∗ = padding∗ * 1 := (mul_one _).symm
      _ ≤ padding∗ * keeping [] := mul_le_mul_right one_le_keeping _
      _ ≤ keeping [] := kstar_mul_le_self (padding_mul_keeping_le [])
  | cons K Ks ih =>
    obtain ⟨hK, hKs⟩ := List.forall_mem_cons.mp hKs
    calc padding∗ * (K * spaced Ks) ≤ padding∗ * (K * keeping Ks) :=
          mul_le_mul_right (mul_le_mul_right (ih hKs) _) _
      _ ≤ padding∗ * keeping (K :: Ks) := mul_le_mul_right (mul_keeping_le hK Ks) _
      _ ≤ keeping (K :: Ks) := kstar_mul_le_self (padding_mul_keeping_le _)

/-- **What a body keeps is a matter of its bytes:** the words of its significant instructions, with
padding between them. -/
theorem keeping_eq_spaced {Ks : List (Language UInt8)} (hKs : ∀ K ∈ Ks, Solid K) :
    keeping Ks = spaced Ks :=
  le_antisymm (keeping_le_spaced Ks) (spaced_le_keeping hKs)

/-! ### The instructions that matter -/

/-- To be solid is a matter of opcodes: it is enough that no opcode of the kind opens a pad, and there
is a table of opcodes to go through. -/
theorem Denotes.solid {words : Language UInt8} {kind : Instruction → Prop} (h : Denotes words kind)
    (opcodes : Opcode → Bool) (hkind : ∀ i, kind i → opcodes i.opcode = true)
    (hopcodes : ∀ o ∈ Opcode.table, opcodes o = true → o.opensPad = false) : Solid words := by
  intro w hw
  obtain ⟨i, hi, hoffset, hencode, hk⟩ := h.exists_instruction w hw 0
  exact ⟨i, hi, hoffset, hencode, hopcodes i.opcode hi.assigned (hkind i hk)⟩

/-- Returns, null, initialisations, leaves and literals are solid, as their opcodes show. -/
theorem solid_ret : Solid Word.ret :=
  denotes_ret.solid (fun o => o.code == Code.ret) (fun _ h => h) (by decide +kernel)

theorem solid_ldnull : Solid Word.ldnull :=
  denotes_ldnull.solid (fun o => o.code == Code.ldnull) (fun _ h => h) (by decide +kernel)

theorem solid_initobj : Solid Word.initobj :=
  denotes_initobj.solid (fun o => o.code == Code.initobj) (fun _ h => h) (by decide +kernel)

theorem solid_leave : Solid Word.leave :=
  denotes_leave.solid (fun o => o.flow == .leave) (fun _ h => h) (by decide +kernel)

theorem solid_literal : Solid Word.literal :=
  denotes_literal.solid
    (fun o => (Code.ldcI4M1 ≤ o.code && o.code ≤ Code.ldcR8) || o.code == Code.ldstr)
    (fun _ h => h) (by decide +kernel)

/-- Loads are solid in all their forms. Only together with a store before them do they make a
shuttle. -/
theorem solid_ldloc (slot : Nat) : Solid (Word.ldloc slot) :=
  (denotes_ldloc slot).solid Opcode.loadsLocal (fun _ => Instruction.loadsLocal_of_loadedLocal?)
    (by decide +kernel)

theorem solid_ldloca (slot : Nat) : Solid (Word.ldloca slot) := by
  refine (denotes_ldloca slot).solid (fun o => o.code == Code.ldlocaS || o.code == Code.ldloca) ?_
    (by decide +kernel)
  intro i hslot
  by_contra hcode
  change ¬ (i.is Code.ldlocaS || i.is Code.ldloca) = true at hcode
  rw [Instruction.addressedLocal?, if_neg hcode] at hslot
  contradiction

/-! ### The three shapes -/

/-- The significant instructions of a body are well-formed. -/
theorem wellFormed_of_mem_significant {body : List UInt8} {i : Instruction}
    (h : i ∈ significant (decode body).instructions) : i.WellFormed := by
  obtain ⟨stop, rest, htiles, -⟩ := exists_tiles_decode body
  exact htiles.wellFormed i ((significant_sublist _).subset h)

section Tests

variable {is : List Instruction} (his : ∀ i ∈ is, i.WellFormed)

include his

/-- Doing nothing: no instruction at all, or a leave alone. -/
theorem doesNothing_iff : doesNothing is = true ↔ Spells is [] ∨ Spells is [Word.leave] := by
  match is, his with
  | [], _ => simp [Spells, doesNothing]
  -- The words of the language are those of well-formed instructions that leave.
  | [only], his =>
    have hmem := denotes_leave.encode_mem_iff (his only (by simp))
    simp [Spells, doesNothing, hmem]
  | _ :: _ :: _, _ => simp [Spells, doesNothing]

/-- Returning a literal: a load of it and a return. The test goes by the number of instructions first,
so the proof does too. -/
theorem returnsLiteral_iff : returnsLiteral is = true ↔ Spells is [Word.literal, Word.ret] := by
  match is, his with
  | [], _ | [_], _ => simp [Spells, returnsLiteral]
  | [load, ret], his =>
    have hload := denotes_literal.encode_mem_iff (his load (by simp))
    have hret := denotes_ret.encode_mem_iff (his ret (by simp))
    simp [Spells, returnsLiteral, hload, hret]
  | _ :: _ :: _ :: _, _ => simp [Spells, returnsLiteral]

/-- Returning a default: null, or a slot that is initialised just before. The slot is any one, but the
same in both places. -/
theorem returnsDefault_iff : returnsDefault is = true ↔
    Spells is [Word.ldnull, Word.ret] ∨
      ∃ slot, Spells is [Word.ldloca slot, Word.initobj, Word.ldloc slot, Word.ret] := by
  match is, his with
  | [], _ | [_], _ | [_, _, _], _ => simp [Spells, returnsDefault]
  | [load, ret], his =>
    have hload := denotes_ldnull.encode_mem_iff (his load (by simp))
    have hret := denotes_ret.encode_mem_iff (his ret (by simp))
    simp [Spells, returnsDefault, hload, hret]
  | [address, init, load, ret], his =>
    have haddress := fun slot => (denotes_ldloca slot).encode_mem_iff (his address (by simp))
    have hinit := denotes_initobj.encode_mem_iff (his init (by simp))
    have hload := fun slot => (denotes_ldloc slot).encode_mem_iff (his load (by simp))
    have hret := denotes_ret.encode_mem_iff (his ret (by simp))
    -- The slot that is asked for is the one whose address is taken, if there is one.
    cases hslot : address.addressedLocal? with
    | none => simp [Spells, returnsDefault, haddress, hslot]
    | some slot => simp [Spells, returnsDefault, haddress, hinit, hload, hret, hslot, and_assoc]
  | _ :: _ :: _ :: _ :: _ :: _, _ => simp [Spells, returnsDefault]

end Tests

theorem profile_tests_iff (body : List UInt8) (test : List Instruction → Bool) :
    ((decode body).error.isNone && test (significant (decode body).instructions)) = true ↔
      (decode body).error = none ∧ test (significant (decode body).instructions) = true := by
  rw [Bool.and_eq_true, Option.isNone_iff_eq_none]

/-- A shape is a matter of what bodies keep. This is the shape of bodies that do nothing; the other
two are read off their tests in the same way. -/
theorem isEmpty_profile_iff (body : List UInt8) :
    (profile body).isEmpty = true ↔ body ∈ keeping [] ∨ body ∈ keeping [Word.leave] := by
  refine (profile_tests_iff body doesNothing).trans ?_
  rw [doesNothing_iff fun i => wellFormed_of_mem_significant]
  exact and_or_left

theorem returnsConstant_profile_iff (body : List UInt8) :
    (profile body).returnsConstant = true ↔ body ∈ keeping [Word.literal, Word.ret] := by
  refine (profile_tests_iff body returnsLiteral).trans ?_
  rw [returnsLiteral_iff fun i => wellFormed_of_mem_significant]
  exact Iff.rfl

theorem returnsDefault_profile_iff (body : List UInt8) :
    (profile body).returnsDefault = true ↔ body ∈ keeping [Word.ldnull, Word.ret] ∨
      ∃ slot, body ∈ keeping [Word.ldloca slot, Word.initobj, Word.ldloc slot, Word.ret] := by
  refine (profile_tests_iff body returnsDefault).trans ?_
  rw [returnsDefault_iff fun i => wellFormed_of_mem_significant, and_or_left, exists_and_left.symm]
  exact Iff.rfl

/-- Null is no literal. -/
theorem isLiteral_of_is_ldnull {i : Instruction} (h : i.is Code.ldnull = true) :
    i.isLiteral = false := by
  have hcode : i.opcode.code = Code.ldnull := beq_iff_eq.mp h
  rw [Instruction.isLiteral, Instruction.is, hcode]
  decide

/-- Instructions pass at most one of the tests. Most of the tests ask for different numbers of
instructions. -/
theorem count_tests_le_one (is : List Instruction) :
    [doesNothing is, returnsLiteral is, returnsDefault is].count true ≤ 1 := by
  match is with
  | [] => decide
  | [only] =>
    change [_, false, false].count true ≤ 1
    cases doesNothing [only] <;> decide
  | [load, ret] =>
    -- Only here are there two tests to pass, and they differ in what is loaded.
    change [false, load.isLiteral && ret.is Code.ret, load.is Code.ldnull && ret.is Code.ret].count
      true ≤ 1
    cases hnull : load.is Code.ldnull with
    | true => cases ret.is Code.ret <;> rw [isLiteral_of_is_ldnull hnull] <;> decide
    | false =>
      rw [Bool.false_and]
      cases load.isLiteral && ret.is Code.ret <;> decide
  | [_, _, _] => exact Nat.zero_le 1
  | [address, init, load, ret] =>
    change [false, false, _].count true ≤ 1
    cases returnsDefault [address, init, load, ret] <;> decide
  | _ :: _ :: _ :: _ :: _ :: _ => exact Nat.zero_le 1

/-- **A body has at most one of the shapes.** If it decodes to its end, the shapes are the tests on
its significant instructions, and otherwise it has none. -/
theorem count_shapes_le_one (body : List UInt8) :
    [(profile body).isEmpty, (profile body).returnsConstant, (profile body).returnsDefault].count true
      ≤ 1 := by
  have htests := count_tests_le_one (significant (decode body).instructions)
  unfold profile Profile.ofDecoded
  cases (decode body).error.isNone with
  | true => exact htests
  | false => exact Nat.zero_le 1

/-- A body that does not decode to its end has none of the shapes. -/
theorem shapes_of_error {body : List UInt8} (h : (decode body).error ≠ none) :
    (profile body).isEmpty = false ∧ (profile body).returnsConstant = false ∧
      (profile body).returnsDefault = false := by
  have hwhole : (decode body).error.isNone = false :=
    Option.isNone_eq_false_iff.mpr (Option.isSome_iff_ne_none.mpr h)
  simp only [profile, Profile.ofDecoded, hwhole, Bool.false_and, and_self]

/-- **The three shapes are grammars.** A body does nothing, returns a literal or returns a default if
and only if its bytes are in the language of that shape. No body has two of the shapes, and one that
does not decode to its end has none. -/
theorem shapes_eq_grammars (body : List UInt8) :
    ((profile body).isEmpty = true ↔ body ∈ padding∗ + padding∗ * Word.leave * padding∗) ∧
    ((profile body).returnsConstant = true ↔
      body ∈ padding∗ * Word.literal * padding∗ * Word.ret * padding∗) ∧
    ((profile body).returnsDefault = true ↔
      body ∈ padding∗ * Word.ldnull * padding∗ * Word.ret * padding∗ ∨
        ∃ slot, body ∈ padding∗ * Word.ldloca slot * padding∗ * Word.initobj * padding∗ *
          Word.ldloc slot * padding∗ * Word.ret * padding∗) ∧
    [(profile body).isEmpty, (profile body).returnsConstant, (profile body).returnsDefault].count true
      ≤ 1 ∧
    ((decode body).error ≠ none → (profile body).isEmpty = false ∧
      (profile body).returnsConstant = false ∧ (profile body).returnsDefault = false) := by
  -- The grammars are written without brackets and `spaced` is nested to the right, so only the law
  -- of associativity is left to apply.
  refine ⟨?_, ?_, ?_, ?_, ?_⟩
  · rw [isEmpty_profile_iff, keeping_eq_spaced (by simp), keeping_eq_spaced (by simp [solid_leave]),
      Language.mem_add]
    simp only [spaced, mul_assoc]
  · rw [returnsConstant_profile_iff, keeping_eq_spaced (by simp [solid_literal, solid_ret])]
    simp only [spaced, mul_assoc]
  · have hslot : ∀ slot, keeping [Word.ldloca slot, Word.initobj, Word.ldloc slot, Word.ret]
        = spaced [Word.ldloca slot, Word.initobj, Word.ldloc slot, Word.ret] := fun slot =>
      keeping_eq_spaced (by simp [solid_ldloca, solid_initobj, solid_ldloc, solid_ret])
    rw [returnsDefault_profile_iff, keeping_eq_spaced (by simp [solid_ldnull, solid_ret])]
    simp only [hslot, spaced, mul_assoc]
  · exact count_shapes_le_one body
  · exact shapes_of_error

-- The forms of a shuttle may differ: here a short store and a load with an operand.
example : (profile [0x00, 0x1F, 0x2A, 0x0A, 0x2B, 0x00, 0x11, 0x00, 0x2A]).returnsConstant = true := by
  decide +kernel

/-- A return in front of an escape without a code is of no shape. -/
theorem shapes_of_cut_body : (decode [0x2A, 0xFE]).error ≠ none ∧
    (profile [0x2A, 0xFE]).isEmpty = false ∧ (profile [0x2A, 0xFE]).returnsConstant = false ∧
      (profile [0x2A, 0xFE]).returnsDefault = false := by
  have hcut : (decode [0x2A, 0xFE]).error ≠ none := by
    decide +kernel
  exact ⟨hcut, (shapes_eq_grammars [0x2A, 0xFE]).2.2.2.2 hcut⟩

end CilLint
