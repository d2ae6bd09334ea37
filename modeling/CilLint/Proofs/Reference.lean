import CilLint.Proofs.Tally

/-!
# What an index records

An instruction with a token operand is a `Use`: by whom, with which opcode, and of what. An index is
exactly a record of the bodies and of the uses that were scanned. `Records` says this, with lists of
bodies and uses that may be in any order, and it is kept by every step of a scan:

* `Records.scanUse` for one instruction, and `Records.scanBody` for a whole body;
* `Records.merge` for two indexes that were made apart.

The kinds of instructions are spelled out again by `Access.codes`, and `Access.ofCode?_eq_some_iff`
says that scans go by these lists.
-/

namespace CilLint

/-! ### Uses -/

/-- The opcodes of the instructions that do something with a member. -/
def Access.codes : Access → List UInt16
  | .load => [Code.ldfld, Code.ldflda, Code.ldsfld, Code.ldsflda]
  | .store => [Code.stfld, Code.stsfld]
  | .call => [Code.call, Code.callvirt, Code.newobj, Code.jmp, Code.ldftn, Code.ldvirtftn]

/-- **Scans go by the lists of opcodes.** The lists do not overlap, so it does not matter in which
order they are asked. -/
theorem Access.ofCode?_eq_some_iff {code : UInt16} {access : Access} :
    Access.ofCode? code = some access ↔ code ∈ access.codes := by
  refine ⟨?_, ?_⟩
  · intro h
    rw [Access.ofCode?] at h
    split_ifs at h with hload hstore hcall
    · obtain rfl := Option.some.inj h
      exact List.contains_iff_mem.mp hload
    · obtain rfl := Option.some.inj h
      exact List.contains_iff_mem.mp hstore
    · obtain rfl := Option.some.inj h
      exact List.contains_iff_mem.mp hcall
  · -- No opcode is on two of the lists.
    intro h
    cases access <;> simp only [Access.codes, List.mem_cons, List.not_mem_nil, or_false] at h
    · rcases h with rfl | rfl | rfl | rfl <;> decide
    · rcases h with rfl | rfl <;> decide
    · rcases h with rfl | rfl | rfl | rfl | rfl | rfl <;> decide

/-- An instruction of a body that names something by a token. -/
structure Use where
  /-- The member that the body belongs to. -/
  owner : MemberKey
  code : UInt16
  /-- The member that the token stands for in the module of the body. -/
  target : Option MemberKey

/-- The uses in the part of a body that can be decoded. -/
def Body.uses (b : Body) : List Use :=
  (decode b.bytes).instructions.filterMap fun i =>
    i.token?.map fun token => ⟨b.owner, i.opcode.code, b.module.resolve? token⟩

/-- Whether a body cannot be decoded to its end. -/
def Body.isFaulty (b : Body) : Bool := (decode b.bytes).error.isSome

/-- The uses in all bodies of a table. -/
def SymbolTable.uses (t : SymbolTable) : List Use := t.bodies.flatMap Body.uses

namespace Use

/-- What a use names, if it is of a kind. -/
def target? (access : Access) (u : Use) : Option MemberKey :=
  if u.code ∈ access.codes then u.target else none

/-- What a use calls, with the caller, unless that is the same. -/
def call? (u : Use) : Option (MemberKey × MemberKey) :=
  ((u.target? .call).filter fun target => target ≠ u.owner).map fun target => (target, u.owner)

/-- Whether a use is of a kind and what it names is not known. -/
def isUnknown (access : Access) (u : Use) : Bool := u.code ∈ access.codes && u.target.isNone

/-- A use names a member as one of a kind if its opcode is of the kind and its token is known. -/
theorem target?_eq_some_iff {access : Access} {u : Use} {k : MemberKey} :
    u.target? access = some k ↔ u.code ∈ access.codes ∧ u.target = some k := by
  rw [target?]
  split_ifs with hcode
  · simp [hcode]
  · simp [hcode]

/-- A call is one by some other member. That a member calls itself is not recorded. -/
theorem call?_eq_some_iff {u : Use} {k c : MemberKey} :
    u.call? = some (k, c) ↔
      c ≠ k ∧ u.owner = c ∧ u.code ∈ Access.call.codes ∧ u.target = some k := by
  rw [call?, Option.map_eq_some_iff]
  refine ⟨?_, ?_⟩
  · rintro ⟨target, hfilter, heq⟩
    obtain ⟨rfl, rfl⟩ := Prod.mk.inj heq
    obtain ⟨htarget, hne⟩ := Option.filter_eq_some_iff.mp hfilter
    exact ⟨Ne.symm (by simpa using hne), rfl, target?_eq_some_iff.mp htarget⟩
  · rintro ⟨hne, rfl, htarget⟩
    exact ⟨k, Option.filter_eq_some_iff.mpr
      ⟨target?_eq_some_iff.mpr htarget, by simpa using hne.symm⟩, rfl⟩

end Use

/-! ### Steps of a scan -/

namespace ReferenceIndex

/-- Records a use. -/
def scanUse (index : ReferenceIndex) (u : Use) : ReferenceIndex :=
  match Access.ofCode? u.code with
  | none => index
  | some access =>
    match u.target with
    | none => index.recordUnknown access
    | some target => index.record u.owner access target

/-- The instructions that count in a scan are the uses. A body is counted first, and if it cannot be
decoded to its end all answers become uncertain. -/
theorem scanBody_eq (index : ReferenceIndex) (b : Body) :
    index.scanBody b
      = b.uses.foldl scanUse (degradeIf b.isFaulty { index with bodies := index.bodies + 1 }) := by
  -- Instructions without a token do nothing, whatever their opcode is.
  have hstep : ∀ index i, scanInstruction b index i
      = ((i.token?.map fun token => Use.mk b.owner i.opcode.code (b.module.resolve? token)).map
          (scanUse index)).getD index := by
    intro index i
    rw [scanInstruction, Instruction.access?]
    cases htoken : i.token? with
    | none => cases Access.ofCode? i.opcode.code <;> rfl
    | some token =>
      simp only [Option.map_some, Option.getD_some, scanUse]
      cases Access.ofCode? i.opcode.code <;> rfl
  rw [scanBody, Body.uses, List.foldl_filterMap]
  refine List.foldl_ext _ _ _ fun index i _ => ?_
  rw [hstep]
  cases i.token? <;> rfl

/-- What a use changes in an index, field by field. A use is a load, a store or a call or none of
these, and in each case at most one field changes. -/
theorem scanUse_eq (index : ReferenceIndex) (u : Use) :
    index.scanUse u =
      { reads := (u.target? .load).elim index.reads (bump index.reads · 1)
        writes := (u.target? .store).elim index.writes (bump index.writes · 1)
        callers := u.call?.elim index.callers fun p => addCallers index.callers p.1 [p.2]
        bodies := index.bodies
        fieldsDegraded := index.fieldsDegraded || (u.isUnknown .load || u.isUnknown .store)
        callsDegraded := index.callsDegraded || u.isUnknown .call } := by
  have hcode : ∀ access, u.code ∈ access.codes ↔ Access.ofCode? u.code = some access :=
    fun access => Access.ofCode?_eq_some_iff.symm
  rw [scanUse]
  -- Membership in the lists of opcodes is decided by what the scan takes the opcode for.
  cases haccess : Access.ofCode? u.code with
  | none => simp [Use.target?, Use.call?, Use.isUnknown, hcode, haccess]
  | some access =>
    cases htarget : u.target with
    | none => cases access <;>
        simp [Use.target?, Use.call?, Use.isUnknown, hcode, haccess, htarget, recordUnknown]
    | some target => cases access with
      | load => simp [Use.target?, Use.call?, Use.isUnknown, hcode, haccess, htarget, record]
      | store => simp [Use.target?, Use.call?, Use.isUnknown, hcode, haccess, htarget, record]
      -- Only here does it matter who the owner is.
      | call =>
        by_cases howner : target = u.owner
        · simp [Use.target?, Use.call?, Use.isUnknown, hcode, haccess, htarget, record, howner,
            Option.filter]
        · simp [Use.target?, Use.call?, Use.isUnknown, hcode, haccess, htarget, record, howner,
            Option.filter]

/-- **What an index is a record of:** some bodies and some uses, in any order. -/
structure Records (index : ReferenceIndex) (scanned : List Body) (uses : List Use) : Prop where
  reads : Tallies index.reads (uses.filterMap (Use.target? .load))
  writes : Tallies index.writes (uses.filterMap (Use.target? .store))
  callers : Groups index.callers (uses.filterMap Use.call?)
  bodies : index.bodies = scanned.length
  fieldsDegraded : index.fieldsDegraded
    = (scanned.any Body.isFaulty || uses.any fun u => u.isUnknown .load || u.isUnknown .store)
  callsDegraded : index.callsDegraded
    = (scanned.any Body.isFaulty || uses.any (Use.isUnknown .call))

namespace Records

variable {index : ReferenceIndex} {scanned : List Body} {uses : List Use}

theorem empty : Records {} [] [] where
  reads := .empty
  writes := .empty
  callers := .empty
  bodies := rfl
  fieldsDegraded := rfl
  callsDegraded := rfl

/-- The order of bodies and uses does not matter. -/
theorem perm (h : Records index scanned uses) {scanned' : List Body} {uses' : List Use}
    (hscanned : scanned.Perm scanned') (huses : uses.Perm uses') :
    Records index scanned' uses' where
  reads := h.reads.perm (huses.filterMap _)
  writes := h.writes.perm (huses.filterMap _)
  callers := h.callers.congr fun _ => (huses.filterMap _).mem_iff
  bodies := by rw [h.bodies, hscanned.length_eq]
  fieldsDegraded := by rw [h.fieldsDegraded, hscanned.any_eq, huses.any_eq]
  callsDegraded := by rw [h.callsDegraded, hscanned.any_eq, huses.any_eq]

/-- **Merging indexes puts together what they record.** So it does not matter which bodies were
scanned together. -/
theorem merge {index' : ReferenceIndex} {scanned' : List Body} {uses' : List Use}
    (h : Records index scanned uses) (h' : Records index' scanned' uses') :
    Records (index.merge index') (scanned ++ scanned') (uses ++ uses') where
  reads := by
    rw [List.filterMap_append]
    exact h.reads.merge h'.reads
  writes := by
    rw [List.filterMap_append]
    exact h.writes.merge h'.writes
  callers := by
    rw [List.filterMap_append]
    exact h.callers.merge h'.callers
  bodies := by rw [ReferenceIndex.merge, h.bodies, h'.bodies, List.length_append]
  -- Answers are uncertain if they were so in one of the two.
  fieldsDegraded := by
    rw [ReferenceIndex.merge, h.fieldsDegraded, h'.fieldsDegraded, List.any_append, List.any_append]
    ac_rfl
  callsDegraded := by
    rw [ReferenceIndex.merge, h.callsDegraded, h'.callsDegraded, List.any_append, List.any_append]
    ac_rfl

/-- A body is counted, and degrades the answers if it is faulty. Its uses are recorded after that. -/
theorem countBody (h : Records index scanned uses) (b : Body) :
    Records (degradeIf b.isFaulty { index with bodies := index.bodies + 1 }) (scanned ++ [b])
      uses where
  reads := h.reads
  writes := h.writes
  callers := h.callers
  bodies := by simp [degradeIf, h.bodies]
  fieldsDegraded := by
    simp only [degradeIf, h.fieldsDegraded, List.any_append, List.any_cons, List.any_nil,
      Bool.or_false]
    ac_rfl
  callsDegraded := by
    simp only [degradeIf, h.callsDegraded, List.any_append, List.any_cons, List.any_nil,
      Bool.or_false]
    ac_rfl

/-- **One use more** is recorded by a step of the scan. Each field of the index is a record of its
own, and is kept separately. -/
theorem scanUse (h : Records index scanned uses) (u : Use) :
    Records (index.scanUse u) scanned (uses ++ [u]) := by
  -- Loads and stores are counted in the same way.
  have hcounts : ∀ {counts : Std.HashMap MemberKey Nat} {access : Access},
      Tallies counts (uses.filterMap (Use.target? access)) →
        Tallies ((u.target? access).elim counts (bump counts · 1))
          ((uses ++ [u]).filterMap (Use.target? access)) := by
    intro counts access hcounts
    rw [List.filterMap_append]
    cases htarget : u.target? access with
    | none => simpa [htarget] using hcounts
    | some target => simpa [htarget] using hcounts.bump target Nat.one_pos
  rw [scanUse_eq]
  refine ⟨hcounts h.reads, hcounts h.writes, ?_, h.bodies, ?_, ?_⟩
  -- A caller is added to those of the member that is called, unless it is that member.
  · rw [List.filterMap_append]
    cases hcall : u.call? with
    | none => simpa [hcall] using h.callers
    | some p => simpa [hcall] using h.callers.add p.1 [p.2]
  · simp [h.fieldsDegraded, Bool.or_assoc]
  · simp [h.callsDegraded, Bool.or_assoc]

/-- The uses of a body are recorded one after another, and in the same way bodies, each with its
uses. -/
theorem foldl_scanUse (h : Records index scanned uses) (more : List Use) :
    Records (more.foldl ReferenceIndex.scanUse index) scanned (uses ++ more) := by
  induction more generalizing index uses with
  | nil =>
    rw [List.append_nil]
    exact h
  | cons u more ih =>
    have hmore := ih (h.scanUse u)
    rw [List.append_assoc] at hmore
    exact hmore

/-- **One body more** is recorded with all its uses. -/
theorem scanBody (h : Records index scanned uses) (b : Body) :
    Records (index.scanBody b) (scanned ++ [b]) (uses ++ b.uses) := by
  rw [scanBody_eq]
  exact (h.countBody b).foldl_scanUse b.uses

theorem foldl_scanBody (h : Records index scanned uses) (bodies : List Body) :
    Records (bodies.foldl ReferenceIndex.scanBody index) (scanned ++ bodies)
      (uses ++ bodies.flatMap Body.uses) := by
  induction bodies generalizing index scanned uses with
  | nil =>
    rw [List.append_nil, List.flatMap_nil, List.append_nil]
    exact h
  | cons b bodies ih =>
    have hbodies := ih (h.scanBody b)
    rw [List.append_assoc, List.append_assoc] at hbodies
    exact hbodies

end Records

/-- **The index of some bodies** is a record of them and of their uses. -/
theorem records_ofBodies (bodies : List Body) :
    Records (ofBodies bodies) bodies (bodies.flatMap Body.uses) :=
  Records.empty.foldl_scanBody bodies

end ReferenceIndex

end CilLint
