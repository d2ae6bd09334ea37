import CilLint.Proofs.Padding

/-!
# Shuttles by their positions

`significant` scans from the left and goes over a shuttle in one step. It never looks at the windows
that start inside a shuttle, nor back at those it has passed. Neither makes a difference: an
instruction is kept if and only if it is no no-operation and none of the windows that reach it is a
shuttle.

The reason is that shuttles do not overlap. An opcode is fit for at most one index in a shuttle
(`Instruction.shuttleIndex?`), so an instruction tells where a shuttle that it is part of starts
(`ShuttleAt.start_eq`). Two things follow:

* `Unbridged.significant_drop` — between steps the scan is at a position that no shuttle reaches over,
  and from there on it keeps what is to be kept by position;
* `Accounts.foldl_visit` — positions may be visited in any order: the pads that are dropped are always
  all the pads that open at one of them.
-/

namespace CilLint

/-! ### Windows -/

/-- The window that starts at a position is a return shuttle. -/
def ShuttleAt (is : List Instruction) (p : Nat) : Prop := isShuttle (is.drop p) = true

/-- The instruction at a position is a no-operation. -/
def NopAt (is : List Instruction) (p : Nat) : Prop := ∃ i ∈ is[p]?, i.is Code.nop = true

/-- Of the windows that start at a position or at most two before it, one is a return shuttle. -/
def Covered (is : List Instruction) (p : Nat) : Prop :=
  ∃ start ≤ p, p < start + 3 ∧ ShuttleAt is start

instance (is : List Instruction) (p : Nat) : Decidable (ShuttleAt is p) :=
  inferInstanceAs (Decidable (_ = _))

instance (is : List Instruction) (p : Nat) : Decidable (NopAt is p) :=
  inferInstanceAs (Decidable (∃ _ ∈ _, _))

instance (is : List Instruction) (p : Nat) : Decidable (Covered is p) :=
  inferInstanceAs (Decidable (∃ _ ≤ _, _))

/-- The index in a shuttle that an instruction is fit for by its opcode: a store comes first, then a
branch, then a load. -/
def Instruction.shuttleIndex? (i : Instruction) : Option Nat :=
  if i.is Code.nop then none
  else if i.opcode.opensPad then some 0
  else if i.is Code.brS || i.is Code.br then some 1
  else if i.opcode.loadsLocal then some 2
  else none

namespace Instruction

variable {i : Instruction} {slot : Nat}

/-- A no-operation is no part of a shuttle. A store is the first part, a branch the second one and a
load the third one, and no instruction is two of these. -/
theorem shuttleIndex?_of_nop (h : i.is Code.nop = true) : i.shuttleIndex? = none := by
  rw [shuttleIndex?, if_pos h]

theorem shuttleIndex?_of_storedLocal? (h : i.storedLocal? = some slot) :
    i.shuttleIndex? = some 0 := by
  have hnop : ¬ i.is Code.nop = true := Bool.eq_false_iff.mp (is_nop_of_storedLocal? h)
  rw [shuttleIndex?, if_neg hnop, if_pos (opensPad_of_storedLocal? h)]

theorem shuttleIndex?_of_jump (h : (i.is Code.brS || i.is Code.br) = true) :
    i.shuttleIndex? = some 1 := by
  have hcode : i.opcode.code = Code.brS ∨ i.opcode.code = Code.br := by simpa [is] using h
  rcases hcode with hcode | hcode
  all_goals
    simp only [shuttleIndex?, is, Opcode.opensPad, Opcode.loadsLocal, hcode]
    decide

theorem shuttleIndex?_of_loadsLocal (h : i.opcode.loadsLocal = true) :
    i.shuttleIndex? = some 2 := by
  -- With the range written out there are six codes, and the index of each can be evaluated.
  have hcode : i.opcode.code = 0x06 ∨ i.opcode.code = 0x07 ∨ i.opcode.code = 0x08 ∨
      i.opcode.code = 0x09 ∨ i.opcode.code = Code.ldlocS ∨ i.opcode.code = Code.ldloc := by
    simp only [Opcode.loadsLocal, Bool.or_eq_true, Bool.and_eq_true, decide_eq_true_eq,
      beq_iff_eq] at h
    rcases h with (⟨hlow, hhigh⟩ | hshort) | hlong
    · rw [UInt16.le_iff_toNat_le] at hlow hhigh
      change 6 ≤ _ at hlow
      change _ ≤ 9 at hhigh
      simp only [← UInt16.toNat_inj, UInt16.reduceToNat]
      omega
    · simp [hshort]
    · simp [hlong]
  rcases hcode with hcode | hcode | hcode | hcode | hcode | hcode
  all_goals
    simp only [shuttleIndex?, is, Opcode.opensPad, Opcode.loadsLocal, hcode]
    decide

end Instruction

/-- Each instruction of a shuttle is fit for its index in it. So from the instruction and its position
it is known where the shuttle starts. -/
theorem ShuttleAt.exists_shuttleIndex? {is : List Instruction} {p q : Nat} (h : ShuttleAt is p)
    (hpq : p ≤ q) (hq : q < p + 3) :
    ∃ i, is[q]? = some i ∧ i.shuttleIndex? = some (q - p) := by
  obtain ⟨store, jump, load, rest, heq⟩ := exists_of_isShuttle h
  rw [ShuttleAt, heq] at h
  obtain ⟨slot, hstore, hjump, -, hload⟩ := isShuttle_cons_iff.mp h
  have hloads := Instruction.loadsLocal_of_loadedLocal? hload
  have hget : ∀ d, is[p + d]? = (store :: jump :: load :: rest)[d]? := by
    intro d
    rw [← heq, List.getElem?_drop]
  obtain ⟨d, rfl⟩ := Nat.exists_eq_add_of_le hpq
  rw [hget, Nat.add_sub_cancel_left]
  -- The distance from the start decides which of the three it is.
  match d with
  | 0 => exact ⟨store, rfl, Instruction.shuttleIndex?_of_storedLocal? hstore⟩
  | 1 => exact ⟨jump, rfl, Instruction.shuttleIndex?_of_jump hjump⟩
  | 2 => exact ⟨load, rfl, Instruction.shuttleIndex?_of_loadsLocal hloads⟩
  | d + 3 => omega

/-- **Shuttles do not overlap:** those that share a position start together. -/
theorem ShuttleAt.start_eq {is : List Instruction} {p q r : Nat} (hp : ShuttleAt is p)
    (hq : ShuttleAt is q) (hpr : p ≤ r) (hrp : r < p + 3) (hqr : q ≤ r) (hrq : r < q + 3) :
    p = q := by
  obtain ⟨i, hi, hindex⟩ := hp.exists_shuttleIndex? hpr hrp
  obtain ⟨j, hj, hindex'⟩ := hq.exists_shuttleIndex? hqr hrq
  -- The instruction that they share has one index only, so both start as far before it.
  obtain rfl : i = j := Option.some.inj (hi.symm.trans hj)
  have hsame : r - p = r - q := Option.some.inj (hindex.symm.trans hindex')
  omega

/-- No part of a shuttle is a no-operation. -/
theorem ShuttleAt.not_nopAt {is : List Instruction} {p q : Nat} (h : ShuttleAt is p) (hpq : p ≤ q)
    (hq : q < p + 3) : ¬ NopAt is q := by
  rintro ⟨i, hi, hnop⟩
  obtain ⟨j, hj, hindex⟩ := h.exists_shuttleIndex? hpq hq
  obtain rfl : i = j := Option.some.inj (hi.symm.trans hj)
  rw [Instruction.shuttleIndex?_of_nop hnop] at hindex
  contradiction

theorem NopAt.not_shuttleAt {is : List Instruction} {p : Nat} (h : NopAt is p) : ¬ ShuttleAt is p :=
  fun hshuttle => hshuttle.not_nopAt (Nat.le_refl p) (Nat.lt_add_of_pos_right (by decide)) h

/-! ### The scan from the left -/

/-- The instructions at the positions with a property, in order; the first instruction is at
`start`. -/
def pick (start : Nat) (keeps : Nat → Prop) [DecidablePred keeps] (is : List Instruction) :
    List Instruction :=
  ((is.zipIdx start).filter fun x => keeps x.2).map Prod.fst

/-- Whether the first instruction is picked is up to its position. -/
theorem pick_cons (start : Nat) (keeps : Nat → Prop) [DecidablePred keeps] (i : Instruction)
    (rest : List Instruction) :
    pick start keeps (i :: rest)
      = if keeps start then i :: pick (start + 1) keeps rest else pick (start + 1) keeps rest := by
  by_cases h : keeps start <;> simp [pick, h]

/-- What is picked depends on the positions within the list only. Further on there is nothing to pick,
whatever the property says. -/
theorem pick_congr {is : List Instruction} {f g : Nat → Prop} [DecidablePred f] [DecidablePred g]
    (h : ∀ p < is.length, f p ↔ g p) : pick 0 f is = pick 0 g is := by
  refine congrArg (List.map Prod.fst) (List.filter_congr fun x hx => ?_)
  exact decide_eq_decide.mpr (h x.2 (List.snd_lt_of_mem_zipIdx hx))

/-- The instruction at a position is the first one of what the scan has left there. -/
theorem nopAt_iff_of_drop {is rest : List Instruction} {k : Nat} {i : Instruction}
    (h : is.drop k = i :: rest) : NopAt is k ↔ i.is Code.nop = true := by
  simp [NopAt, ← List.head?_drop, h]

theorem drop_succ_of_drop {is rest : List Instruction} {k : Nat} {i : Instruction}
    (h : is.drop k = i :: rest) : is.drop (k + 1) = rest := by
  rw [← List.tail_drop, h, List.tail_cons]

/-- No shuttle reaches over a position. -/
def Unbridged (is : List Instruction) (k : Nat) : Prop := ∀ p < k, ShuttleAt is p → p + 3 ≤ k

namespace Unbridged

variable {is : List Instruction} {k : Nat}

/-- If no shuttle starts at the position, none reaches over the next one. -/
theorem succ (h : Unbridged is k) (hk : ¬ ShuttleAt is k) : Unbridged is (k + 1) := by
  intro p hp hshuttle
  rcases Nat.lt_succ_iff_lt_or_eq.mp hp with hlt | rfl
  · exact Nat.le_succ_of_le (h p hlt hshuttle)
  · exact absurd hshuttle hk

/-- Behind a shuttle no other can reach over its end, since they would overlap. This is where the scan
goes on. -/
theorem add_three (h : Unbridged is k) (hk : ShuttleAt is k) : Unbridged is (k + 3) := by
  intro p hp hshuttle
  by_cases hlt : p < k
  · exact Nat.le_trans (h p hlt hshuttle) (Nat.le_add_right k 3)
  · have heq : p = k := hshuttle.start_eq hk (Nat.le_refl p) (by omega) (by omega) hp
    exact Nat.le_of_eq (congrArg (· + 3) heq)

/-- What no shuttle reaches over and no shuttle starts at is in none. -/
theorem not_covered (h : Unbridged is k) (hk : ¬ ShuttleAt is k) : ¬ Covered is k := by
  rintro ⟨start, hle, hlt, hshuttle⟩
  rcases Nat.lt_or_eq_of_le hle with hbefore | rfl
  · have hend := h start hbefore hshuttle
    omega
  · exact hk hshuttle

/-- **The loop.** From a position that no shuttle reaches over, the scan keeps what is no no-operation
and is in no shuttle of the whole list. -/
theorem significant_drop (h : Unbridged is k) :
    significant (is.drop k) = pick k (fun p => ¬ NopAt is p ∧ ¬ Covered is p) (is.drop k) := by
  -- The induction follows the scan; each of its steps ends at another such position.
  generalize hrest : is.drop k = rest
  induction rest using significant.induct generalizing k with
  | case1 => simp [significant, pick]
  | case2 i rest hnop ih =>
    have hat : NopAt is k := (nopAt_iff_of_drop hrest).mpr hnop
    rw [significant, if_pos hnop, pick_cons, if_neg fun hkeeps => hkeeps.1 hat]
    exact ih (h.succ hat.not_shuttleAt) (drop_succ_of_drop hrest)
  -- The scan drops three instructions at once, and by position they are dropped because the shuttle
  -- covers each of them.
  | case3 i rest hnop hshuttle ih =>
    obtain ⟨store, jump, load, after, heq⟩ := exists_of_isShuttle hshuttle
    obtain ⟨rfl, rfl⟩ := List.cons.inj heq
    have hat : ShuttleAt is k := by rwa [ShuttleAt, hrest]
    have hnext : is.drop (k + 3) = after := by rw [← List.drop_drop, hrest]; rfl
    have hcovered : ∀ p, k ≤ p ∧ p < k + 3 → ¬ (¬ NopAt is p ∧ ¬ Covered is p) :=
      fun p hp hkeeps => hkeeps.2 ⟨k, hp.1, hp.2, hat⟩
    rw [significant, if_neg hnop, if_pos hshuttle, pick_cons, if_neg (hcovered k (by omega)),
      pick_cons, if_neg (hcovered (k + 1) (by omega)), pick_cons, if_neg (hcovered (k + 2) (by omega))]
    exact ih (h.add_three hat) hnext
  | case4 i rest hnop hshuttle ih =>
    have hat : ¬ NopAt is k := fun hat => hnop ((nopAt_iff_of_drop hrest).mp hat)
    have hnone : ¬ ShuttleAt is k := by rwa [ShuttleAt, hrest]
    rw [significant, if_neg hnop, if_neg hshuttle, pick_cons,
      if_pos ⟨hat, h.not_covered hnone⟩, ih (h.succ hnone) (drop_succ_of_drop hrest)]

end Unbridged

/-- **What is significant is a matter of positions.** The scan starts where nothing has been passed
yet, so no shuttle reaches over. -/
theorem significant_eq_pick (is : List Instruction) :
    significant is = pick 0 (fun p => ¬ NopAt is p ∧ ¬ Covered is p) is := by
  have hstart : Unbridged is 0 := fun p hp => absurd hp (Nat.not_lt_zero p)
  exact hstart.significant_drop

/-! ### Scans in any order -/

/-- The positions of the pad that opens at a position: none if there is no pad. -/
def padAt (is : List Instruction) (p : Nat) : List Nat :=
  if NopAt is p then [p] else if ShuttleAt is p then [p, p + 1, p + 2] else []

/-- A visit to a position, with the positions that are dropped so far: the pad that opens there is
dropped too, unless a part of it already is. -/
def visit (is : List Instruction) (dropped : List Nat) (p : Nat) : List Nat :=
  if ∀ r ∈ padAt is p, r ∉ dropped then padAt is p ++ dropped else dropped

/-- The pad at a position, by cases: a no-operation is alone, a shuttle has three positions. -/
theorem mem_padAt_iff {is : List Instruction} {p r : Nat} :
    r ∈ padAt is p ↔ (r = p ∧ NopAt is p) ∨ (p ≤ r ∧ r < p + 3 ∧ ShuttleAt is p) := by
  unfold padAt
  -- Where there is a no-operation no shuttle starts, so it does not matter which is asked first.
  by_cases hnop : NopAt is p
  · simp [hnop, hnop.not_shuttleAt]
  · by_cases hshuttle : ShuttleAt is p
    · simp only [hnop, hshuttle, if_true, if_false, List.mem_cons, List.not_mem_nil, or_false,
        and_false, and_true, false_or]
      omega
    · simp [hnop, hshuttle]

/-- Pads do not overlap. Of two shuttles this was shown, and a no-operation is in none. -/
theorem start_eq_of_mem_padAt {is : List Instruction} {p q r : Nat} (hp : r ∈ padAt is p)
    (hq : r ∈ padAt is q) : p = q := by
  rcases mem_padAt_iff.mp hp with ⟨rfl, hnop⟩ | ⟨hpr, hrp, hshuttle⟩
  · rcases mem_padAt_iff.mp hq with ⟨heq, -⟩ | ⟨hqr, hrq, hshuttle'⟩
    · exact heq
    · exact absurd hnop (hshuttle'.not_nopAt hqr hrq)
  · rcases mem_padAt_iff.mp hq with ⟨rfl, hnop⟩ | ⟨hqr, hrq, hshuttle'⟩
    · exact absurd hnop (hshuttle.not_nopAt hpr hrp)
    · exact hshuttle.start_eq hshuttle' hpr hrp hqr hrq

/-- Dropped positions that are those of the pads which open at the visited ones. -/
def Accounts (is : List Instruction) (visited dropped : List Nat) : Prop :=
  ∀ r, r ∈ dropped ↔ ∃ p ∈ visited, r ∈ padAt is p

/-- **One more visit** drops the pad that opens there, if it was not dropped before. It cannot have
been dropped in part. -/
theorem Accounts.visit {is : List Instruction} {visited dropped : List Nat}
    (h : Accounts is visited dropped) (p : Nat) :
    Accounts is (visited ++ [p]) (visit is dropped p) := by
  have hsplit : ∀ r, (∃ q ∈ visited ++ [p], r ∈ padAt is q) ↔ r ∈ dropped ∨ r ∈ padAt is p := by
    intro r
    simp only [h r, List.mem_append, List.mem_singleton, or_and_right, exists_or, exists_eq_left]
  intro r
  rw [hsplit, CilLint.visit]
  by_cases hfresh : ∀ r ∈ padAt is p, r ∉ dropped
  · rw [if_pos hfresh, List.mem_append, or_comm]
  · rw [if_neg hfresh]
    -- A pad of which a part is dropped was visited before, so all of it is dropped.
    push Not at hfresh
    obtain ⟨s, hs, hdropped⟩ := hfresh
    obtain ⟨q, hq, hs'⟩ := (h s).mp hdropped
    obtain rfl := start_eq_of_mem_padAt hs hs'
    exact (or_iff_left_of_imp fun hr => (h r).mpr ⟨p, hq, hr⟩).symm

/-- **The order of visits is irrelevant** to what is dropped. The invariant says which positions are
dropped after some visits, and it does not mention their order. -/
theorem Accounts.foldl_visit {is : List Instruction} {visited dropped : List Nat}
    (h : Accounts is visited dropped) (order : List Nat) :
    Accounts is (visited ++ order) (order.foldl (CilLint.visit is) dropped) := by
  induction order generalizing visited dropped with
  | nil => rwa [List.append_nil]
  | cons p order ih =>
    rw [List.append_cons]
    exact ih (h.visit p)

/-- A position is dropped in the end if and only if it is that of a no-operation or in a shuttle. -/
theorem mem_foldl_visit_iff {is : List Instruction} {order : List Nat}
    (horder : ∀ p < is.length, p ∈ order) {r : Nat} (hr : r < is.length) :
    r ∈ order.foldl (visit is) [] ↔ NopAt is r ∨ Covered is r := by
  have hstart : Accounts is [] [] := fun r => by simp
  rw [hstart.foldl_visit order r, List.nil_append]
  constructor
  · rintro ⟨p, -, hmem⟩
    rcases mem_padAt_iff.mp hmem with ⟨rfl, hnop⟩ | ⟨hpr, hrp, hshuttle⟩
    · exact .inl hnop
    · exact .inr ⟨p, hpr, hrp, hshuttle⟩
  · rintro (hnop | ⟨p, hpr, hrp, hshuttle⟩)
    · exact ⟨r, horder r hr, mem_padAt_iff.mpr (.inl ⟨rfl, hnop⟩)⟩
    · exact ⟨p, horder p (by omega), mem_padAt_iff.mpr (.inr ⟨hpr, hrp, hshuttle⟩)⟩

/-- **The scan is positional.** It keeps, in order, the instructions that are no no-operations and that
no shuttle covers. No two shuttles overlap, and so the same is kept if all positions are visited in any
other order. -/
theorem scan_is_positional (is : List Instruction) :
    significant is = pick 0 (fun p => ¬ NopAt is p ∧ ¬ Covered is p) is ∧
    (∀ p q, ShuttleAt is p → ShuttleAt is q → p < q → p + 3 ≤ q) ∧
    ∀ order : List Nat, (∀ p < is.length, p ∈ order) →
      pick 0 (fun p => p ∉ order.foldl (visit is) []) is = significant is := by
  refine ⟨significant_eq_pick is, ?_, ?_⟩
  -- If the second started within the first, then they would start together.
  · intro p q hp hq hlt
    by_contra hoverlap
    have heq := hp.start_eq hq (Nat.le_of_lt hlt) (by omega) (Nat.le_refl q) (by omega)
    omega
  -- What is dropped in the end is what is not kept by position, whatever the order of the visits.
  · intro order horder
    rw [significant_eq_pick]
    refine pick_congr fun p hp => ?_
    rw [mem_foldl_visit_iff horder hp, not_or]

-- The windows are those of the list as it stands: a no-operation is dropped, but no shuttle comes of
-- that when it was between a store and a branch.
example : (profile [0x0A, 0x00, 0x2B, 0x00, 0x06]).significant = 3 := by decide +kernel

/-- A literal that goes through two locals, one right after the other, and is returned. -/
def relayed : List Instruction :=
  (decode [0x00, 0x16, 0x0A, 0x2B, 0x00, 0x06, 0x0B, 0x2B, 0x00, 0x07, 0x2A]).instructions

/-- From the right, the second of two shuttles is found first. -/
theorem scan_relayed : ShuttleAt relayed 2 ∧ ShuttleAt relayed 5 ∧ 2 + 3 ≤ 5 ∧
    (∀ p < relayed.length, p ∈ (List.range 9).reverse) ∧
    pick 0 (fun p => p ∉ (List.range 9).reverse.foldl (visit relayed) []) relayed
      = significant relayed := by
  have hfirst : ShuttleAt relayed 2 := by decide +kernel
  have hsecond : ShuttleAt relayed 5 := by decide +kernel
  have horder : ∀ p < relayed.length, p ∈ (List.range 9).reverse := by decide +kernel
  obtain ⟨-, hapart, hany⟩ := scan_is_positional relayed
  exact ⟨hfirst, hsecond, hapart 2 5 hfirst hsecond (by decide), horder, hany _ horder⟩

end CilLint
