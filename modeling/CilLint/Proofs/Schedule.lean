import CilLint.Proofs.Reference

/-!
# Indexes do not depend on the schedule

The bodies of a table may be scanned in any chunks, and the indexes of the chunks merged in any
order. A `Schedule` is such a way to make an index. Whatever the schedule is, if it scans each body
of a table once then the index is `Exact` for the table: each answer is given by the uses in the
bodies. Exact indexes answer all questions alike (`Exact.agrees`), so in particular they agree with
the index that scans one body after the other.

Callers are listed in the order of their keys. For this the order on keys has to be a linear one,
which it is because it compares the three parts of a key one after the other.
-/

namespace CilLint

/-! ### Callers in order -/

namespace MemberKey

instance : Std.TransOrd MemberKey :=
  inferInstanceAs (Std.TransCmp (compareLex (compareOn declaringType)
    (compareLex (compareOn name) (compareOn parameters))))

instance : Std.LawfulEqOrd MemberKey where
  eq_of_compare {a b} h := by
    obtain ⟨htype, h⟩ := Ordering.then_eq_eq.mp h
    obtain ⟨hname, hparameters⟩ := Ordering.then_eq_eq.mp h
    rw [MemberKey.mk.injEq]
    exact ⟨Std.LawfulEqOrd.eq_of_compare htype, Std.LawfulEqOrd.eq_of_compare hname,
      Std.LawfulEqOrd.eq_of_compare hparameters⟩

end MemberKey

namespace ReferenceIndex

/-- Callers are listed in strictly ascending order. They come from a set, in an order that depends on
how it was made, and sorting takes that away. -/
theorem pairwise_callersOf (index : ReferenceIndex) (k : MemberKey) :
    (index.callersOf k).Pairwise fun a b => compare a b = .lt := by
  have hsorted : (index.callersOf k).Pairwise fun a b => (compare a b).isLE = true :=
    List.pairwise_mergeSort (fun _ _ _ => Std.TransCmp.isLE_trans)
      (fun a b => by
        have hswap : compare b a = (compare a b).swap := Std.OrientedCmp.eq_swap
        rw [hswap]
        cases compare a b <;> rfl) _
  have hnodup : (index.callersOf k).Nodup := by
    refine ((List.mergeSort_perm _ _).nodup_iff).mpr ?_
    exact Std.HashSet.distinct_toList.imp fun h => by simpa using h
  -- Sorted and without repetition is strictly ascending, since equal keys are the same.
  refine (hsorted.and hnodup).imp ?_
  rintro a b ⟨hle, hne⟩
  cases hcompare : compare a b with
  | lt => rfl
  | eq => exact absurd (Std.LawfulEqOrd.eq_of_compare hcompare) hne
  | gt => simp [hcompare] at hle

theorem mem_callersOf_iff {index : ReferenceIndex} {k c : MemberKey} :
    c ∈ index.callersOf k ↔ c ∈ index.callers.getD k ∅ := by
  rw [callersOf, List.mem_mergeSort, Std.HashSet.mem_toList]

/-- A member counts as called if it has a caller, or if calls are not known for certain. So a member
is called dead only if all calls are known. -/
theorem isCalled_iff {index : ReferenceIndex} {k : MemberKey} :
    index.isCalled k = true ↔ index.callsDegraded = true ∨ ∃ c, c ∈ index.callersOf k := by
  rw [isCalled, Bool.or_eq_true, Bool.not_eq_true', Std.HashSet.isEmpty_eq_false_iff_exists_mem]
  simp only [mem_callersOf_iff]

/-! ### Exact indexes -/

/-- **An index is exact for a table** if its answers are those that the uses in the bodies give. -/
structure Exact (index : ReferenceIndex) (t : SymbolTable) : Prop where
  /-- A field is read as often as it is loaded, -/
  readCount : ∀ k, index.readCount k
    = t.uses.countP fun u => u.code ∈ Access.load.codes && u.target = some k
  reads : ∀ k, k ∈ index.reads ↔ ∃ u ∈ t.uses, u.code ∈ Access.load.codes ∧ u.target = some k
  /-- and written if it is stored. -/
  writes : ∀ k, k ∈ index.writes ↔ ∃ u ∈ t.uses, u.code ∈ Access.store.codes ∧ u.target = some k
  /-- Callers are listed in strictly ascending order, -/
  sorted : ∀ k, (index.callersOf k).Pairwise fun a b => compare a b = .lt
  /-- and they are the other members whose bodies have a call. -/
  callersOf : ∀ k c, c ∈ index.callersOf k ↔
    c ≠ k ∧ ∃ u ∈ t.uses, u.owner = c ∧ u.code ∈ Access.call.codes ∧ u.target = some k
  /-- Every member with a body counts. -/
  bodies : index.bodies = t.members.countP fun m => m.member.body.isSome
  /-- Answers are degraded if something was left out, if a body cannot be decoded to its end, or if
  it is not known what an instruction of the kind names. -/
  fieldsDegraded : index.fieldsDegraded = true ↔
    t.skips ≠ [] ∨ (∃ b ∈ t.bodies, (decode b.bytes).error ≠ none) ∨
      ∃ u ∈ t.uses, (u.code ∈ Access.load.codes ∨ u.code ∈ Access.store.codes) ∧ u.target = none
  callsDegraded : index.callsDegraded = true ↔
    t.skips ≠ [] ∨ (∃ b ∈ t.bodies, (decode b.bytes).error ≠ none) ∨
      ∃ u ∈ t.uses, u.code ∈ Access.call.codes ∧ u.target = none

theorem length_bodies (t : SymbolTable) :
    t.bodies.length = t.members.countP fun m => m.member.body.isSome := by
  rw [SymbolTable.bodies, SymbolTable.members, List.length_flatMap, List.countP_flatMap]
  congr 1
  refine List.map_congr_left fun e _ => ?_
  rw [TypeEntry.bodies, List.length_filterMap_eq_countP]
  exact List.countP_congr fun m _ => by simp

/-- **A record of all bodies of a table is exact** once it is degraded by what was left out. What was
left out may have bodies too, and nothing is known about them. -/
theorem Records.exact {index : ReferenceIndex} {t : SymbolTable}
    (h : Records index t.bodies t.uses) : (degradeIf (!t.isComplete) index).Exact t := by
  have hcomplete : (!t.isComplete) = true ↔ t.skips ≠ [] := by
    simp [SymbolTable.isComplete]
  have hfaulty : t.bodies.any Body.isFaulty = true ↔
      ∃ b ∈ t.bodies, (decode b.bytes).error ≠ none := by
    simp [Body.isFaulty, Option.isSome_iff_ne_none]
  constructor
  -- Counts and memberships are read off the lists of uses,
  case readCount =>
    intro k
    refine (h.reads.count k).trans ?_
    rw [List.count_filterMap]
    exact List.countP_congr fun u _ => by simp [Use.target?_eq_some_iff]
  case reads =>
    intro k
    refine (h.reads.mem k).trans ?_
    simp only [List.mem_filterMap, Use.target?_eq_some_iff]
  case writes =>
    intro k
    refine (h.writes.mem k).trans ?_
    simp only [List.mem_filterMap, Use.target?_eq_some_iff]
  case sorted => exact pairwise_callersOf _
  case callersOf =>
    intro k c
    rw [mem_callersOf_iff]
    refine (h.callers k c).trans (List.mem_filterMap.trans ?_)
    simp only [Use.call?_eq_some_iff]
    refine ⟨?_, ?_⟩
    · rintro ⟨u, hu, hne, howner⟩
      exact ⟨hne, u, hu, howner⟩
    · rintro ⟨hne, u, hu, howner⟩
      exact ⟨u, hu, hne, howner⟩
  case bodies => exact h.bodies.trans (length_bodies t)
  -- and so is what degrades the answers, with what was left out on top.
  case fieldsDegraded =>
    rw [degradeIf, Bool.or_eq_true, h.fieldsDegraded, Bool.or_eq_true, hfaulty, hcomplete,
      or_comm (b := t.skips ≠ [])]
    simp [Use.isUnknown, or_and_right]
  case callsDegraded =>
    rw [degradeIf, Bool.or_eq_true, h.callsDegraded, Bool.or_eq_true, hfaulty, hcomplete,
      or_comm (b := t.skips ≠ [])]
    simp [Use.isUnknown]

/-- Two indexes answer every question alike. -/
structure Agrees (a b : ReferenceIndex) : Prop where
  isRead : ∀ k, a.isRead k = b.isRead k
  isWritten : ∀ k, a.isWritten k = b.isWritten k
  readCount : ∀ k, a.readCount k = b.readCount k
  callersOf : ∀ k, a.callersOf k = b.callersOf k
  isCalled : ∀ k, a.isCalled k = b.isCalled k
  isPropertyRead : ∀ k getter, a.isPropertyRead k getter = b.isPropertyRead k getter
  bodies : a.bodies = b.bodies
  fieldsDegraded : a.fieldsDegraded = b.fieldsDegraded
  callsDegraded : a.callsDegraded = b.callsDegraded
  isDegraded : a.isDegraded = b.isDegraded

/-- **Indexes that are exact for one table agree** in every answer. They need not be the same: the
order of entries in a hash map may differ, but no question shows it. -/
theorem Exact.agrees {a b : ReferenceIndex} {t : SymbolTable} (ha : a.Exact t) (hb : b.Exact t) :
    a.Agrees b := by
  have hfields : a.fieldsDegraded = b.fieldsDegraded :=
    Bool.eq_iff_iff.mpr (ha.fieldsDegraded.trans hb.fieldsDegraded.symm)
  have hcalls : a.callsDegraded = b.callsDegraded :=
    Bool.eq_iff_iff.mpr (ha.callsDegraded.trans hb.callsDegraded.symm)
  have hreads : ∀ k, a.reads.contains k = b.reads.contains k := fun k =>
    Bool.eq_iff_iff.mpr ((ha.reads k).trans (hb.reads k).symm)
  have hwrites : ∀ k, a.writes.contains k = b.writes.contains k := fun k =>
    Bool.eq_iff_iff.mpr ((ha.writes k).trans (hb.writes k).symm)
  -- Lists in strictly ascending order are equal if they have the same elements.
  have hcallers : ∀ k, a.callersOf k = b.callersOf k := by
    intro k
    have hne : ∀ {x y : MemberKey}, compare x y = .lt → x ≠ y := by
      rintro x y hlt rfl
      simp at hlt
    have hperm : (a.callersOf k).Perm (b.callersOf k) :=
      (List.perm_ext_iff_of_nodup ((ha.sorted k).imp hne) ((hb.sorted k).imp hne)).mpr fun c =>
        (ha.callersOf k c).trans (hb.callersOf k c).symm
    refine hperm.eq_of_pairwise ?_ (ha.sorted k) (hb.sorted k)
    intro x y _ _ hxy hyx
    have hgt : compare y x = .gt := Std.OrientedCmp.gt_of_lt hxy
    rw [hyx] at hgt
    cases hgt
  -- Whether there is a caller at all follows from the lists.
  have hcalled : ∀ k, a.isCalled k = b.isCalled k := by
    intro k
    rw [Bool.eq_iff_iff, isCalled_iff, isCalled_iff, hcalls, hcallers k]
  exact
    { isRead := fun k => by rw [isRead, isRead, hfields, hreads k]
      isWritten := fun k => by rw [isWritten, isWritten, hfields, hwrites k]
      readCount := fun k => (ha.readCount k).trans (hb.readCount k).symm
      callersOf := hcallers
      isCalled := hcalled
      isPropertyRead := fun k getter => hcalled _
      bodies := ha.bodies.trans hb.bodies.symm
      fieldsDegraded := hfields
      callsDegraded := hcalls
      isDegraded := by rw [isDegraded, isDegraded, hfields, hcalls] }

/-- The index of a table is exact. It scans one body after the other, which is one of the possible
schedules. -/
theorem exact_ofTable (t : SymbolTable) : (ofTable t).Exact t :=
  (records_ofBodies t.bodies).exact

end ReferenceIndex

/-! ### Schedules -/

/-- A way to make an index from parts. -/
inductive Schedule where
  /-- Nothing is scanned. -/
  | idle
  /-- Bodies are scanned one after the other. -/
  | chunk (bodies : List Body)
  /-- Two indexes are made apart and then merged. -/
  | merge (first second : Schedule)

namespace Schedule

/-- The bodies that are scanned. -/
def bodies : Schedule → List Body
  | idle => []
  | chunk bodies => bodies
  | merge first second => first.bodies ++ second.bodies

/-- The index that is made. -/
def index : Schedule → ReferenceIndex
  | idle => {}
  | chunk bodies => bodies.foldl ReferenceIndex.scanBody {}
  | merge first second => first.index.merge second.index

/-- Whatever the schedule is, the index records the bodies. The induction is over the tree of merges,
so a merge has to put together two records. -/
theorem records (s : Schedule) :
    ReferenceIndex.Records s.index s.bodies (s.bodies.flatMap Body.uses) := by
  induction s with
  | idle => exact .empty
  | chunk bodies => exact ReferenceIndex.records_ofBodies bodies
  | merge first second ihfirst ihsecond =>
    rw [bodies, List.flatMap_append]
    exact ihfirst.merge ihsecond

end Schedule

/-- **Indexes are exact, and the schedule does not matter.** It may split the bodies into any chunks
and merge these in any order, with empty indexes in between. -/
theorem schedule_exact (t : SymbolTable) (s : Schedule) (h : s.bodies.Perm t.bodies) :
    (ReferenceIndex.degradeIf (!t.isComplete) s.index).Exact t ∧
      (ReferenceIndex.degradeIf (!t.isComplete) s.index).Agrees (.ofTable t) := by
  -- The schedule scans the bodies of the table in another order, and a record has none.
  have hexact : (ReferenceIndex.degradeIf (!t.isComplete) s.index).Exact t :=
    (s.records.perm h (h.flatMap_right Body.uses)).exact
  exact ⟨hexact, hexact.agrees (ReferenceIndex.exact_ofTable t)⟩

/-- A table of two methods, one of which calls the other. -/
def callerAndCallee : SymbolTable where
  modules := []
  types :=
    [{  id := 0
        module := .ofManifest
          { name := "Game", references := [⟨⟨0x06000002⟩, "Game.Loop", "Spin", []⟩] }
        parent := none
        fullName := "Game.Loop"
        info := { name := "Loop", nameSpace := "Game" }
        nested := []
        isIgnored := false
        members :=
          [⟨0, 0, { name := "Run", kind := .method, body := some [0x28, 2, 0, 0, 6, 0x2A] },
              ⟨"Game.Loop", "Run", []⟩, false⟩,
            ⟨1, 0, { name := "Spin", kind := .method, body := some [0x2A] },
              ⟨"Game.Loop", "Spin", []⟩, false⟩] }]
  skips := []

/-- A schedule that scans the second body first, apart from the other one. -/
def calleeFirst : Schedule :=
  .merge (.merge (.chunk (callerAndCallee.bodies.drop 1)) .idle)
    (.chunk (callerAndCallee.bodies.take 1))

/-- The index that is made in this order answers like the one made in the order of the table. -/
theorem schedule_exact_calleeFirst :
    calleeFirst.bodies.Perm callerAndCallee.bodies ∧
      (ReferenceIndex.degradeIf false calleeFirst.index).Agrees (.ofTable callerAndCallee) := by
  have hperm : calleeFirst.bodies.Perm callerAndCallee.bodies := by
    rw [calleeFirst, Schedule.bodies, Schedule.bodies, Schedule.bodies, Schedule.bodies,
      Schedule.bodies, List.append_nil]
    exact List.perm_append_comm.trans (.of_eq (List.take_append_drop 1 _))
  exact ⟨hperm, (schedule_exact callerAndCallee calleeFirst hperm).2⟩

end CilLint
