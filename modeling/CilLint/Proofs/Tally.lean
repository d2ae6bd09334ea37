import CilLint.Usage.Index
import Mathlib.Data.List.Nodup
import Mathlib.Data.List.Perm.Basic

/-!
# Maps as lists of occurrences

An index counts keys in hash maps, and collects callers in hash maps of hash sets. What such a map
holds is said here by a list: of the keys that were counted (`Tallies`), and of the pairs of a
member and a caller of it (`Groups`). The order of the lists does not matter, and merging two maps
appends their lists (`Tallies.merge`, `Groups.merge`). So nothing further needs to look into the
maps.
-/

namespace CilLint

/-! ### Counts -/

/-- Counts are those of the occurrences of keys in a list, and no key has an entry without need. -/
structure Tallies (counts : Std.HashMap MemberKey Nat) (keys : List MemberKey) : Prop where
  count : ∀ k, counts.getD k 0 = keys.count k
  mem : ∀ k, k ∈ counts ↔ k ∈ keys

namespace Tallies

variable {counts : Std.HashMap MemberKey Nat} {keys : List MemberKey}

theorem empty : Tallies ∅ [] where
  count _ := Std.HashMap.getD_empty
  mem k := by simp

/-- The order in which keys were counted does not matter. So counts say how often each key occurs, and
nothing else. -/
theorem perm (h : Tallies counts keys) {keys' : List MemberKey} (hperm : keys.Perm keys') :
    Tallies counts keys' where
  count k := by rw [h.count, hperm.count_eq]
  mem k := by rw [h.mem, hperm.mem_iff]

/-- Counting a key some more times. Not zero times, which would make an entry for a key that does not
occur. -/
theorem bump (h : Tallies counts keys) (key : MemberKey) {n : Nat} (hn : 0 < n) :
    Tallies (ReferenceIndex.bump counts key n) (keys ++ List.replicate n key) where
  count k := by
    rw [ReferenceIndex.bump, Std.HashMap.getD_insert, List.count_append, List.count_replicate,
      h.count, h.count]
    by_cases hk : key = k
    · rw [if_pos (beq_iff_eq.mpr hk), if_pos (beq_iff_eq.mpr hk), hk]
    · rw [if_neg (by simpa using hk), if_neg (by simpa using hk), Nat.add_zero]
  mem k := by
    rw [ReferenceIndex.bump, Std.HashMap.mem_insert, List.mem_append, List.mem_replicate, h.mem,
      beq_iff_eq, or_comm]
    exact or_congr_right ⟨fun hk => ⟨Nat.ne_of_gt hn, hk.symm⟩, fun hk => hk.2.symm⟩

/-- The keys of some entries, each as often as its entry says. -/
def spread (entries : List (MemberKey × Nat)) : List MemberKey :=
  entries.flatMap fun p => List.replicate p.2 p.1

/-- Counting the keys of some entries, each as often as its entry says, and on top of what is
there. -/
theorem foldl (h : Tallies counts keys) {entries : List (MemberKey × Nat)}
    (hpos : ∀ p ∈ entries, 0 < p.2) :
    Tallies (entries.foldl (fun all p => ReferenceIndex.bump all p.1 p.2) counts)
      (keys ++ spread entries) := by
  induction entries generalizing counts keys with
  | nil =>
    rw [spread, List.flatMap_nil, List.append_nil]
    exact h
  | cons p entries ih =>
    have hfirst := h.bump p.1 (hpos p List.mem_cons_self)
    rw [spread, List.flatMap_cons, ← List.append_assoc]
    exact ih hfirst fun q hq => hpos q (List.mem_cons_of_mem p hq)

/-- What is spread out comes from an entry. -/
theorem mem_spread {entries : List (MemberKey × Nat)} {k : MemberKey} (h : k ∈ spread entries) :
    ∃ n, (k, n) ∈ entries := by
  obtain ⟨⟨key, n⟩, hp, hk⟩ := List.mem_flatMap.mp h
  obtain rfl := List.eq_of_mem_replicate hk
  exact ⟨n, hp⟩

/-- A key that has only one entry occurs as often as it says. In the list of entries of a map every
key has one entry at most. -/
theorem count_spread {entries : List (MemberKey × Nat)}
    (hdistinct : entries.Pairwise fun p q => (p.1 == q.1) = false) {k : MemberKey} {n : Nat}
    (h : (k, n) ∈ entries) : (spread entries).count k = n := by
  induction entries with
  | nil => exact absurd h List.not_mem_nil
  | cons p entries ih =>
    obtain ⟨hfirst, hrest⟩ := List.pairwise_cons.mp hdistinct
    rw [spread, List.flatMap_cons, List.count_append, List.count_replicate]
    -- The entry is the first one and then the key does not occur again, or it is one of the others.
    rcases List.mem_cons.mp h with rfl | hmem
    · have hnone : k ∉ spread entries := by
        intro hk
        obtain ⟨n', hn'⟩ := mem_spread hk
        simpa using hfirst _ hn'
      rw [if_pos (beq_self_eq_true k)]
      exact congrArg (n + ·) (List.count_eq_zero.mpr hnone)
    · rw [hfirst _ hmem, if_neg Bool.false_ne_true, Nat.zero_add]
      exact ih hrest hmem

/-- An entry of a map says how often its key occurs, and it does occur. -/
theorem count_of_mem_toList (h : Tallies counts keys) {k : MemberKey} {n : Nat}
    (hmem : (k, n) ∈ counts.toList) : k ∈ keys ∧ keys.count k = n := by
  have hget := Std.HashMap.mem_toList_iff_getElem?_eq_some.mp hmem
  refine ⟨(h.mem k).mp (Std.HashMap.mem_iff_isSome_getElem?.mpr (by rw [hget]; rfl)), ?_⟩
  rw [← h.count, Std.HashMap.getD_eq_getD_getElem?, hget, Option.getD_some]

/-- The entries of a map, spread out, are what it counts. The order of entries in a map is not known,
so this is up to order. -/
theorem spread_toList (h : Tallies counts keys) : (spread counts.toList).Perm keys := by
  rw [List.perm_iff_count]
  intro k
  -- A key with an entry occurs as often as this says, and one without an entry never.
  by_cases hk : k ∈ counts
  · have hentry := Std.HashMap.mem_toList_iff_getElem?_eq_some.mpr
      (Std.HashMap.getElem?_eq_some_getElem hk)
    rw [count_spread Std.HashMap.distinct_keys_toList hentry, (h.count_of_mem_toList hentry).2]
  · have hnone : k ∉ spread counts.toList := by
      intro hmem
      obtain ⟨n, hn⟩ := mem_spread hmem
      exact hk ((h.mem k).mpr (h.count_of_mem_toList hn).1)
    rw [List.count_eq_zero.mpr hnone, List.count_eq_zero.mpr fun hmem => hk ((h.mem k).mpr hmem)]

/-- **Merging counts appends what they count.** The second map is folded into the first one in an
order that is not known, so what is counted is only known up to order, and that is enough. -/
theorem merge {counts' : Std.HashMap MemberKey Nat} {keys' : List MemberKey}
    (h : Tallies counts keys) (h' : Tallies counts' keys') :
    Tallies (counts'.fold ReferenceIndex.bump counts) (keys ++ keys') := by
  -- An entry of zero would make a key that never occurs look as if it did.
  have hpos : ∀ p ∈ counts'.toList, 0 < p.2 := by
    intro p hp
    obtain ⟨hmem, hcount⟩ := h'.count_of_mem_toList hp
    rw [← hcount]
    exact List.count_pos_iff.mpr hmem
  rw [Std.HashMap.fold_eq_foldl_toList]
  exact (h.foldl hpos).perm (h'.spread_toList.append_left keys)

end Tallies

/-! ### Callers -/

/-- The sets of a map collect the second components of some pairs by the first ones. -/
def Groups (callers : Std.HashMap MemberKey (Std.HashSet MemberKey))
    (calls : List (MemberKey × MemberKey)) : Prop :=
  ∀ k c, c ∈ callers.getD k ∅ ↔ (k, c) ∈ calls

namespace Groups

variable {callers : Std.HashMap MemberKey (Std.HashSet MemberKey)}
  {calls : List (MemberKey × MemberKey)}

theorem empty : Groups ∅ [] := by
  intro k c
  rw [Std.HashMap.getD_empty]
  simp

/-- Only membership matters: neither the order of the pairs nor how often they occur. -/
theorem congr (h : Groups callers calls) {calls' : List (MemberKey × MemberKey)}
    (hsame : ∀ p, p ∈ calls ↔ p ∈ calls') : Groups callers calls' := by
  intro k c
  rw [h, hsame]

/-- Adding some callers of a member. -/
theorem add (h : Groups callers calls) (key : MemberKey) (more : List MemberKey) :
    Groups (ReferenceIndex.addCallers callers key more) (calls ++ more.map (Prod.mk key)) := by
  intro k c
  rw [ReferenceIndex.addCallers, Std.HashMap.getD_insert, List.mem_append]
  by_cases hk : key = k
  · subst hk
    rw [if_pos (beq_self_eq_true key), Std.HashSet.mem_insertMany_list, h]
    simp
  · rw [if_neg (by simpa using hk), h]
    simp [hk]

/-- Adding the callers of several members, on top of what is there. -/
theorem foldl (h : Groups callers calls)
    (entries : List (MemberKey × Std.HashSet MemberKey)) :
    Groups
      (entries.foldl (fun all p => ReferenceIndex.addCallers all p.1 p.2.toList) callers)
      (calls ++ entries.flatMap fun p => p.2.toList.map (Prod.mk p.1)) := by
  induction entries generalizing callers calls with
  | nil =>
    rw [List.flatMap_nil, List.append_nil]
    exact h
  | cons p entries ih =>
    rw [List.flatMap_cons, ← List.append_assoc]
    exact ih (h.add p.1 p.2.toList)

/-- **Merging callers appends what they collect.** The callers of a member in the second map are added
to those in the first one, and a caller that is in both is still one. -/
theorem merge {callers' : Std.HashMap MemberKey (Std.HashSet MemberKey)}
    {calls' : List (MemberKey × MemberKey)} (h : Groups callers calls) (h' : Groups callers' calls') :
    Groups
      (callers'.fold (fun all key more => ReferenceIndex.addCallers all key more.toList) callers)
      (calls ++ calls') := by
  rw [Std.HashMap.fold_eq_foldl_toList]
  -- The pairs of the entries are those that the second map collects.
  refine (h.foldl _).congr ?_
  rintro ⟨k, c⟩
  rw [List.mem_append, List.mem_append, ← h' k c, Std.HashMap.getD_eq_getD_getElem?]
  refine or_congr_right ?_
  refine ⟨?_, ?_⟩
  -- A pair of an entry is found under the key of the entry.
  · intro hmem
    obtain ⟨⟨key, set⟩, hentry, hc⟩ := List.mem_flatMap.mp hmem
    obtain ⟨c', hc', heq⟩ := List.mem_map.mp hc
    obtain ⟨rfl, rfl⟩ := Prod.mk.inj heq
    rw [Std.HashMap.mem_toList_iff_getElem?_eq_some.mp hentry, Option.getD_some]
    exact Std.HashSet.mem_toList.mp hc'
  -- And what is found under a key is in the entry of that key, which there must be.
  · intro hmem
    cases hget : callers'[k]? with
    | none =>
      rw [hget, Option.getD_none] at hmem
      exact absurd hmem Std.HashSet.not_mem_empty
    | some set =>
      rw [hget, Option.getD_some] at hmem
      exact List.mem_flatMap.mpr ⟨(k, set), Std.HashMap.mem_toList_iff_getElem?_eq_some.mpr hget,
        List.mem_map_of_mem (Std.HashSet.mem_toList.mpr hmem)⟩

end Groups

end CilLint
