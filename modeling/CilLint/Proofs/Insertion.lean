import CilLint.Bytecode.Score
import CilLint.Proofs.Padding

/-!
# Padding put into a body

A pad that is put between two instructions of a body leaves the shape of the body as it is, unless it
tears a shuttle apart. The body may have a fault further on.

Both bodies, with the pad and without it, are read as the same instructions up to the boundary and as
those of the same remaining bytes after it, only shifted by different distances
(`Boundary.exists_split`). So what is to be shown is that the scan can be cut at the boundary. `Seam`
says when: no shuttle begins before it and ends after it. Without the pad this is what the hypothesis
is for. With the pad it always holds, since neither the branch nor the load of a shuttle can open a
pad (`Pad.seam`).
-/

namespace CilLint

/-! ### Where padding is put -/

/-- The boundaries of a body: its start, and the end of each of its instructions. -/
def Boundary (body : List UInt8) (p : Nat) : Prop :=
  p = 0 ∨ ∃ i ∈ (decode body).instructions, i.stop = p

/-- An offset after the start and before the end of a shuttle. -/
def InsideShuttle (is : List Instruction) (p : Nat) : Prop :=
  ∃ window ∈ is.tails, isShuttle window = true ∧
    (∃ store ∈ window[0]?, store.offset < p) ∧ ∃ load ∈ window[2]?, p < load.stop

instance (body : List UInt8) (p : Nat) : Decidable (Boundary body p) :=
  inferInstanceAs (Decidable (_ ∨ _))

instance (is : List Instruction) (p : Nat) : Decidable (InsideShuttle is p) :=
  inferInstanceAs (Decidable (∃ _ ∈ _, _))

/-- Bytes put into a body. -/
def insertAt (p : Nat) (w body : List UInt8) : List UInt8 := body.take p ++ w ++ body.drop p

/-- A body is read as the instructions before a boundary and then as what comes after it, shifted.
Only at a boundary is this so: in the middle of an instruction other instructions would be read. -/
theorem Boundary.exists_split {body : List UInt8} {p : Nat} (h : Boundary body p) :
    ∃ xs, Tiles 0 xs p ∧ body.take p = xs.flatMap Instruction.encode ∧
      decode body = ⟨xs ++ (decode (body.drop p)).instructions.map (Instruction.shift p),
        (decode (body.drop p)).error.map (DecodeError.shift p)⟩ := by
  have hsplit : ∃ xs rest, Tiles 0 xs p ∧ body = xs.flatMap Instruction.encode ++ rest := by
    rcases h with rfl | ⟨i, hi, rfl⟩
    · exact ⟨[], body, .nil 0, rfl⟩
    -- The instructions of the body are cut after the one that stops at the boundary.
    · obtain ⟨stop, rest, htiles, hbody, -⟩ := exists_tiles_decode body
      obtain ⟨before, after, heq⟩ := List.append_of_mem hi
      rw [heq, List.append_cons] at htiles hbody
      obtain ⟨mid, hbefore, -⟩ := htiles.exists_mid
      have hmid : i.stop = mid := by simpa using hbefore.stop_eq
      rw [List.flatMap_append, List.append_assoc] at hbody
      exact ⟨before ++ [i], _, hmid ▸ hbefore, hbody⟩
  obtain ⟨xs, rest, htiles, rfl⟩ := hsplit
  have hlength : (xs.flatMap Instruction.encode).length = p := by
    rw [← htiles.length_encode, Nat.zero_add]
  rw [List.take_left' hlength, List.drop_left' hlength]
  exact ⟨xs, htiles, rfl, htiles.decode_append rest⟩

/-! ### Cutting the scan -/

/-- Instructions after which others can stand without completing a shuttle. -/
def Seam (xs zs : List Instruction) : Prop :=
  ∀ tail, tail <:+ xs → tail ≠ [] → isShuttle (tail ++ zs) = true → isShuttle tail = true

/-- A seam stays one if fewer instructions are before it. -/
theorem Seam.of_suffix {xs ys zs : List Instruction} (h : Seam xs zs) (hys : ys <:+ xs) :
    Seam ys zs :=
  fun tail htail => h tail (htail.trans hys)

/-- **The scan can be cut at a seam.** The induction follows the scan. At each step it has to be known
that it does not take more than there is before the seam. -/
theorem Seam.significant_append {xs zs : List Instruction} (h : Seam xs zs) :
    significant (xs ++ zs) = significant xs ++ significant zs := by
  induction xs using significant.induct with
  | case1 => simp [significant]
  | case2 i rest hnop ih =>
    rw [List.cons_append, significant, if_pos hnop, significant, if_pos hnop,
      ih (h.of_suffix (List.suffix_cons i rest))]
  -- A shuttle before the seam ends before it as well, so the scan comes to the seam and not over
  -- it.
  | case3 i rest hnop hshuttle ih =>
    obtain ⟨store, jump, load, after, heq⟩ := exists_of_isShuttle hshuttle
    obtain ⟨rfl, rfl⟩ := List.cons.inj heq
    have hsuffix : after <:+ i :: jump :: load :: after := ⟨[i, jump, load], rfl⟩
    have hwhole : isShuttle (i :: (jump :: load :: after ++ zs)) = true := hshuttle
    rw [List.cons_append, significant, if_neg hnop, if_pos hwhole, significant, if_neg hnop,
      if_pos hshuttle]
    exact ih (h.of_suffix hsuffix)
  | case4 i rest hnop hshuttle ih =>
    -- What is no shuttle on its own is none with the others behind it.
    have hwhole : ¬ isShuttle (i :: (rest ++ zs)) = true := fun hwhole =>
      hshuttle (h (i :: rest) (List.suffix_refl _) (List.cons_ne_nil i rest) hwhole)
    rw [List.cons_append, significant, if_neg hnop, if_neg hwhole, significant, if_neg hnop,
      if_neg hshuttle, ih (h.of_suffix (List.suffix_cons i rest)), List.cons_append]

/-- Only a window that begins with the last one or two instructions can reach beyond them, since a
shuttle has three instructions. For all others the instructions behind the seam are not looked at. -/
theorem seam_of_short {xs zs : List Instruction}
    (h : ∀ tail, tail <:+ xs → tail ≠ [] → tail.length ≤ 2 → ¬ isShuttle (tail ++ zs) = true) :
    Seam xs zs := by
  intro tail hsuffix hne hshuttle
  match tail with
  | [] => exact absurd rfl hne
  | [store] => exact absurd hshuttle (h [store] hsuffix hne (by simp))
  | [store, jump] => exact absurd hshuttle (h [store, jump] hsuffix hne (by simp))
  | store :: jump :: load :: rest => exact hshuttle

theorem Tiles.le_offset {start stop : Nat} {xs : List Instruction} (h : Tiles start xs stop) :
    ∀ i ∈ xs, start ≤ i.offset := by
  induction h with
  | nil => simp
  | @cons i xs stop hi hrest ih =>
    have hstop := hi.stop_eq
    exact List.forall_mem_cons.mpr ⟨le_rfl, fun j hj => le_trans (by omega) (ih j hj)⟩

theorem Instruction.WellFormed.offset_lt_stop {i : Instruction} (h : i.WellFormed) :
    i.offset < i.stop := by
  have hstop := h.stop_eq
  have hpos := i.length_pos
  omega

/-- **Where no shuttle is torn apart there is a seam.** A shuttle over the boundary would begin with
one of the last two instructions before it, and then the boundary is inside of it. -/
theorem seam_of_not_insideShuttle {start p stop : Nat} {xs zs : List Instruction}
    (hxs : Tiles start xs p) (hzs : Tiles p zs stop) (h : ¬ InsideShuttle (xs ++ zs) p) :
    Seam xs zs := by
  refine seam_of_short fun tail hsuffix hne hlength hshuttle => h ?_
  -- The store is one of the instructions before the boundary and the load is one of those after it.
  obtain ⟨store, jump, load, rest, heq⟩ := exists_of_isShuttle hshuttle
  have hstore : store ∈ tail := by
    have hget : (tail ++ zs)[0]? = some store := by rw [heq]; rfl
    rw [List.getElem?_append_left (List.length_pos_iff.mpr hne)] at hget
    exact List.mem_of_getElem? hget
  have hload : load ∈ zs := by
    have hget : (tail ++ zs)[2]? = some load := by rw [heq]; rfl
    rw [List.getElem?_append_right hlength] at hget
    exact List.mem_of_getElem? hget
  have hwf := hxs.wellFormed store (hsuffix.subset hstore)
  have hbefore := hxs.stop_le store (hsuffix.subset hstore)
  have hafter := hzs.le_offset load hload
  refine ⟨tail ++ zs, (List.mem_tails _ _).mpr ?_, hshuttle, ⟨store, by rw [heq]; rfl, ?_⟩,
    ⟨load, by rw [heq]; rfl, ?_⟩⟩
  · obtain ⟨before, rfl⟩ := hsuffix
    exact ⟨before, by rw [List.append_assoc]⟩
  · exact lt_of_lt_of_le hwf.offset_lt_stop hbefore
  · exact lt_of_le_of_lt hafter (hzs.wellFormed load hload).offset_lt_stop

/-! ### Pads -/

/-- A pad begins with a no-operation or a store. These are the only instructions that the scan drops
something for. -/
theorem Pad.exists_head {pad : List Instruction} (h : Pad pad) :
    ∃ i rest, pad = i :: rest ∧ i.opcode.opensPad = true := by
  cases h with
  | @nop i hnop =>
    have hcode : i.opcode.code = Code.nop := beq_iff_eq.mp hnop
    exact ⟨i, [], rfl, by rw [Opcode.opensPad, hcode]; rfl⟩
  | @shuttle store jump load hshuttle =>
    obtain ⟨slot, hstore, -⟩ := isShuttle_cons_iff.mp hshuttle
    exact ⟨store, [jump, load], rfl, Instruction.opensPad_of_storedLocal? hstore⟩

/-- **No shuttle reaches into a pad,** since what opens one neither branches nor loads. So before a
pad the scan can be cut anywhere, even after the store of a shuttle. -/
theorem Pad.seam {pad : List Instruction} (h : Pad pad) (hwf : ∀ i ∈ pad, i.WellFormed)
    (xs rest : List Instruction) : Seam xs (pad ++ rest) := by
  obtain ⟨i, others, rfl, hopens⟩ := h.exists_head
  have hcodes : ∀ o ∈ Opcode.table, o.opensPad = true →
      (o.code == Code.brS || o.code == Code.br) = false ∧ o.loadsLocal = false := by decide +kernel
  obtain ⟨hbranch, hloads⟩ := hcodes i.opcode (hwf i (by simp)).assigned hopens
  refine seam_of_short fun tail _ hne hlength hshuttle => ?_
  obtain ⟨store, jump, load, after, heq⟩ := exists_of_isShuttle hshuttle
  rw [heq] at hshuttle
  obtain ⟨slot, -, hjump, -, hload⟩ := isShuttle_cons_iff.mp hshuttle
  -- The pad begins where the branch of the shuttle is expected, or where its load is.
  match tail with
  | [] => exact hne rfl
  | [_] =>
    obtain ⟨-, rfl, -⟩ : _ ∧ i = jump ∧ _ := by simpa using heq
    exact Bool.false_ne_true (hbranch.symm.trans hjump)
  | [_, _] =>
    obtain ⟨-, -, rfl, -⟩ : _ ∧ _ ∧ i = load ∧ _ := by simpa using heq
    exact Bool.false_ne_true (hloads.symm.trans (Instruction.loadsLocal_of_loadedLocal? hload))
  | _ :: _ :: _ :: _ =>
    simp only [List.length_cons] at hlength
    omega

/-- What a result of decoding, and another that is the same but for a pad, have in common. -/
structure Padded (pad : List Instruction) (d d' : Decoded) : Prop where
  opcodes : (d'.instructions.map Instruction.opcode).Perm
    (pad.map Instruction.opcode ++ d.instructions.map Instruction.opcode)
  significant : List.Forall₂ Instruction.Alike (significant d.instructions)
    (significant d'.instructions)
  error : d.error.isSome = d'.error.isSome

/-- **A pad at a boundary that is not inside a shuttle** adds its own opcodes, and nothing to what is
significant. -/
theorem Boundary.padded {body w : List UInt8} {p : Nat} {pad : List Instruction}
    (hp : Boundary body p) (hin : ¬ InsideShuttle (decode body).instructions p) (hpad : Pad pad)
    (htiles : Tiles p pad (p + w.length)) (hw : pad.flatMap Instruction.encode = w) :
    Padded pad (decode body) (decode (insertAt p w body)) := by
  obtain ⟨xs, hxs, htake, hdecode⟩ := hp.exists_split
  have hpadded : insertAt p w body
      = (xs ++ pad).flatMap Instruction.encode ++ body.drop p := by
    rw [insertAt, htake, List.flatMap_append, hw]
  rw [hpadded, (hxs.append htiles).decode_append]
  -- The instructions of the remaining bytes, before they are shifted.
  generalize hrest : (decode (body.drop p)).instructions = rest at hdecode
  have hzs : ∃ stop, Tiles p (rest.map (Instruction.shift p)) stop := by
    obtain ⟨stop, -, hall, -⟩ := exists_tiles_decode body
    rw [hdecode] at hall
    obtain ⟨mid, hxs', hzs⟩ := hall.exists_mid
    rw [← hxs'.stop_eq, hxs.stop_eq] at hzs
    exact ⟨stop, hzs⟩
  obtain ⟨stop, hzs⟩ := hzs
  rw [hdecode] at hin ⊢
  -- The scan is cut at the boundary in both bodies, and after it there are the same instructions.
  refine ⟨?_, ?_, ?_⟩
  · simp only [List.map_append, List.map_map, Function.comp_def, Instruction.opcode_shift,
      ← List.append_assoc]
    exact List.perm_append_comm.append_right _
  -- Without the pad there is a seam by assumption. With it there is one in any case, and the pad is
  -- dropped.
  · rw [(seam_of_not_insideShuttle hxs hzs hin).significant_append, List.append_assoc,
      (hpad.seam htiles.wellFormed xs _).significant_append, hpad.significant_append,
      significant_map_shift, significant_map_shift]
    refine List.rel_append (List.forall₂_same.mpr fun i _ => Instruction.Alike.refl i) ?_
    rw [List.forall₂_map_left_iff, List.forall₂_map_right_iff]
    exact List.forall₂_same.mpr fun i _ => Instruction.alike_shift _ _ i
  · simp only [Option.isSome_map]

/-! ### Profiles -/

/-- Profiles that agree in all that a pad leaves alone. -/
structure Profile.SameShape (p q : Profile) : Prop where
  significant : p.significant = q.significant
  isEmpty : p.isEmpty = q.isEmpty
  returnsConstant : p.returnsConstant = q.returnsConstant
  returnsDefault : p.returnsDefault = q.returnsDefault
  hasCall : p.hasCall = q.hasCall
  fails : p.error.isSome = q.error.isSome

/-- Of what the factors depend on, only branches are not part of the shape. A shuttle has one, which
is why it can change the score of a body. -/
theorem Profile.SameShape.factors_eq {p q : Profile} (h : p.SameShape q)
    (hbranch : p.hasBranch = q.hasBranch) : p.factors = q.factors := by
  have hwhole : p.error.isNone = q.error.isNone := by
    rw [← Option.not_isSome, ← Option.not_isSome, h.fails]
  simp only [Profile.factors, hwhole, h.significant, h.isEmpty, h.returnsConstant, h.returnsDefault,
    h.hasCall, hbranch]

namespace Padded

variable {pad : List Instruction} {d d' : Decoded}

/-- Whether there is an opcode of some sort: in the pad or in the rest. Calls and branches are looked
for among all instructions, also those that are not significant. -/
theorem any_eq (h : Padded pad d d') (f : Opcode → Bool) :
    (d'.instructions.any fun i => f i.opcode)
      = ((pad.any fun i => f i.opcode) || d.instructions.any fun i => f i.opcode) := by
  have hany := h.opcodes.any_eq (f := f)
  rwa [List.any_append, List.any_map, List.any_map, List.any_map] at hany

theorem length_eq (h : Padded pad d d') :
    d'.instructions.length = d.instructions.length + pad.length := by
  have hlength := h.opcodes.length_eq
  simp only [List.length_append, List.length_map] at hlength
  omega

theorem isNone_error (h : Padded pad d d') : d.error.isNone = d'.error.isNone := by
  rw [← Option.not_isSome, ← Option.not_isSome, h.error]

/-- A pad that calls nothing leaves the shape as it is. -/
theorem sameShape (h : Padded pad d d') (hcall : (pad.any fun i => i.opcode.isCall) = false) :
    (Profile.ofDecoded d).SameShape (Profile.ofDecoded d') where
  significant := h.significant.length_eq
  isEmpty := congrArg₂ (· && ·) h.isNone_error (doesNothing_congr h.significant)
  returnsConstant := congrArg₂ (· && ·) h.isNone_error (returnsLiteral_congr h.significant)
  returnsDefault := congrArg₂ (· && ·) h.isNone_error (returnsDefault_congr h.significant)
  hasCall := by
    have hany := h.any_eq Opcode.isCall
    rw [hcall, Bool.false_or] at hany
    exact hany.symm
  fails := h.error

end Padded

/-- A no-operation neither calls nor branches. -/
theorem flow_nop {i : Instruction} (hi : i.WellFormed) (h : i.is Code.nop = true) :
    i.opcode.isCall = false ∧ i.opcode.isBranch = false := by
  have htable : ∀ o ∈ Opcode.table, o.code = Code.nop → o.isCall = false ∧ o.isBranch = false := by
    decide +kernel
  exact htable i.opcode hi.assigned (beq_iff_eq.mp h)

/-- No part of a shuttle calls, and one of them branches. The table of opcodes says so. -/
theorem flow_shuttle {store jump load : Instruction}
    (hwf : ∀ i ∈ [store, jump, load], i.WellFormed) (h : isShuttle [store, jump, load] = true) :
    store.opcode.isCall = false ∧ jump.opcode.isCall = false ∧ load.opcode.isCall = false ∧
      jump.opcode.isBranch = true := by
  have hstores : ∀ o ∈ Opcode.table, o.opensPad = true → o.isCall = false := by decide +kernel
  have hjumps : ∀ o ∈ Opcode.table, (o.code == Code.brS || o.code == Code.br) = true →
      o.isCall = false ∧ o.isBranch = true := by decide +kernel
  have hloads : ∀ o ∈ Opcode.table, o.loadsLocal = true → o.isCall = false := by decide +kernel
  obtain ⟨i, _, heq, hopens⟩ := (Pad.shuttle h).exists_head
  obtain ⟨slot, -, hjump, -, hload⟩ := isShuttle_cons_iff.mp h
  obtain rfl : store = i := (List.cons.inj heq).1
  obtain ⟨hcall, hbranch⟩ := hjumps jump.opcode (hwf jump (by simp)).assigned hjump
  refine ⟨hstores _ (hwf store (by simp)).assigned hopens, hcall, ?_, hbranch⟩
  exact hloads _ (hwf load (by simp)).assigned (Instruction.loadsLocal_of_loadedLocal? hload)

/-- **Padding leaves the shape of a body as it is.** A no-operation at a boundary that is not inside a
shuttle only makes the body longer by one instruction, and its score stays the same for all weights. A
whole shuttle makes it longer by three, one of which is a branch. -/
theorem sameShape_insertAt {body : List UInt8} {p : Nat} (hp : Boundary body p)
    (hin : ¬ InsideShuttle (decode body).instructions p) :
    ((profile body).SameShape (profile (insertAt p [0x00] body)) ∧
      (profile (insertAt p [0x00] body)).hasBranch = (profile body).hasBranch ∧
      (profile (insertAt p [0x00] body)).length = (profile body).length + 1 ∧
      ∀ (α : Type) [LT α] [DecidableLT α] [OfNat α 0] [OfNat α 1] [Add α] (weights : Weights α),
        (profile (insertAt p [0x00] body)).score weights = (profile body).score weights) ∧
    ∀ w ∈ Word.shuttle,
      (profile body).SameShape (profile (insertAt p w body)) ∧
      (profile (insertAt p w body)).hasBranch = true ∧
      (profile (insertAt p w body)).length = (profile body).length + 3 := by
  refine ⟨?_, ?_⟩
  · have hw : [0x00] ∈ Word.nop := ⟨([0x00], 0), by simp, [], rfl, rfl⟩
    obtain ⟨i, hnop, htiles, hbytes⟩ := exists_nop hw p
    obtain ⟨hcall, hbranch⟩ := flow_nop (htiles.wellFormed i (by simp)) hnop
    have hpadded := hp.padded hin (.nop hnop) htiles hbytes
    have hshape := hpadded.sameShape (by simp [hcall])
    have hsame : (profile (insertAt p [0x00] body)).hasBranch = (profile body).hasBranch := by
      have hany := hpadded.any_eq Opcode.isBranch
      rwa [List.any_cons, hbranch, List.any_nil, Bool.false_or, Bool.false_or] at hany
    refine ⟨hshape, hsame, hpadded.length_eq, ?_⟩
    -- Scores depend on the factors alone, and those are the same.
    intro α _ _ _ _ _ weights
    exact congrArg (fun factors => clampUnit (weights.sum factors)) (hshape.factors_eq hsame.symm).symm
  -- A shuttle has a branch, so here the score may become another one.
  · intro w hw
    obtain ⟨store, jump, load, hshuttle, htiles, hbytes⟩ := exists_shuttle hw p
    obtain ⟨hstore, hjump, hload, hbranch⟩ := flow_shuttle htiles.wellFormed hshuttle
    have hpadded := hp.padded hin (.shuttle hshuttle) htiles hbytes
    refine ⟨hpadded.sameShape (by simp [hstore, hjump, hload]), ?_, hpadded.length_eq⟩
    refine (hpadded.any_eq Opcode.isBranch).trans ?_
    simp [hbranch]

/-- A shuttle and a return, and then an escape without a code. -/
def shuttled : List UInt8 := [0x0A, 0x2B, 0x00, 0x06, 0x2A, 0xFE]

/-- Before the return there is a boundary that is not inside the shuttle. -/
theorem sameShape_shuttled : Boundary shuttled 4 ∧ ¬ InsideShuttle (decode shuttled).instructions 4 ∧
    (profile shuttled).SameShape (profile (insertAt 4 [0x00] shuttled)) ∧
      (profile shuttled).SameShape
        (profile (insertAt 4 [0x13, 0x07, 0x38, 0x00, 0x00, 0x00, 0x00, 0x11, 0x07] shuttled)) := by
  have hboundary : Boundary shuttled 4 := by decide +kernel
  have hinside : ¬ InsideShuttle (decode shuttled).instructions 4 := by decide +kernel
  have hword : [0x13, 0x07, 0x38, 0x00, 0x00, 0x00, 0x00, 0x11, 0x07] ∈ Word.shuttle :=
    ⟨7, Language.append_mem_mul
      (Language.append_mem_mul (a := [0x13, 0x07]) (b := [0x38, 0x00, 0x00, 0x00, 0x00])
        (.inr ⟨([0x13], 1), by simp, by decide, rfl⟩) (.inr rfl))
      (.inr ⟨([0x11], 1), by simp, by decide, rfl⟩)⟩
  obtain ⟨⟨hnop, -⟩, hshuttle⟩ := sameShape_insertAt hboundary hinside
  exact ⟨hboundary, hinside, hnop, (hshuttle _ hword).1⟩

end CilLint
