import CilLint.Proofs.Flattening
import Mathlib.Data.List.Perm.Basic
import Mathlib.Data.Option.Basic

/-!
# The shape of symbol tables

What the table of some modules looks like, whatever the modules are. By `ofModules_types` its types
are the entries of the sites, so all of this is about lists of entries.

* **Nesting** (`parent_entry_iff`, `mem_nested_entry_iff`, `getElem?_nested_entry`): the numbers
  that entries hold of each other are those of the types directly around and directly inside.
* **Members** (`members_map_id`, `members_map_id_entry`): the numbers of the members of each type
  begin where those of the type before end, and together they are all numbers up to the number of
  members.
* **Symbols** (`symbols_handles`, `nodup_handles`): each type and each member is one symbol.
-/

namespace CilLint

/-! ### Nesting -/

section Nesting

variable {modules : List Module}

/-- The entry with a number is that of the site with this number. With this, what is to be shown of
entries is shown of sites. -/
theorem getElem?_types (modules : List Module) (i : Nat) :
    (SymbolTable.ofModules modules).types[i]?
      = (sitesOfModules modules)[i]?.map fun s => s.entry (sitesOfModules modules) i := by
  rw [ofModules_types, entriesFrom, List.getElem?_map, List.getElem?_zipIdx, Option.map_map]
  congr 1
  funext s
  rw [Nat.zero_add]
  rfl

/-- A type that encloses another stands before it. If it stood after it, the address of an earlier
site would begin with that of a later one. -/
theorem Site.Encloses.lt {outer inner : Site} {i j : Nat} (h : outer.Encloses inner)
    (houter : (sitesOfModules modules)[i]? = some outer)
    (hinner : (sitesOfModules modules)[j]? = some inner) : i < j := by
  obtain ⟨hi, rfl⟩ := List.getElem?_eq_some_iff.mp houter
  obtain ⟨hj, rfl⟩ := List.getElem?_eq_some_iff.mp hinner
  obtain ⟨k, haddress, -⟩ := h.declared
  -- The address of the inner site is longer, and it begins with that of the outer one.
  rcases Nat.lt_trichotomy i j with hlt | rfl | hlt
  · exact hlt
  · have hlength := congrArg List.length haddress
    simp at hlength
  · refine absurd ?_ (List.pairwise_iff_getElem.mp (preordered_sites modules) j i hj hi hlt)
    rw [haddress]
    exact List.prefix_append _ _

/-- **The parent of an entry** is the number of the site directly around it, and an outermost type has
none. -/
theorem parent_entry_iff {inner : Site} (hinner : inner ∈ sitesOfModules modules) (i j : Nat) :
    (inner.entry (sitesOfModules modules) j).parent = some i ↔
      ∃ outer, (sitesOfModules modules)[i]? = some outer ∧ outer.Encloses inner := by
  have hnodup := (preordered_sites modules).nodup
  -- Whatever lies directly around the site has its address without the last position.
  have hparent : ∀ outer : Site, outer.Encloses inner →
      (inner.entry (sitesOfModules modules) j).parent
        = some (indexOf (sitesOfModules modules) outer.address) := by
    intro outer hencloses
    obtain ⟨k, haddress, -⟩ := hencloses.declared
    rw [Site.entry, if_neg (by simp [hencloses.enclosing, Site.path]), haddress,
      List.dropLast_concat]
  refine ⟨?_, ?_⟩
  · intro hi
    rcases isOutermost_or_enclosed hinner with hnone | ⟨outer, houter, hencloses⟩
    · rw [Site.entry, hnone] at hi
      exact absurd hi (by simp)
    · rw [hparent outer hencloses] at hi
      obtain rfl := Option.some.inj hi
      exact ⟨outer, getElem?_indexOf hnodup houter, hencloses⟩
  · rintro ⟨outer, houter, hencloses⟩
    rw [hparent outer hencloses, indexOf_eq hnodup houter]

/-- The positions of the types that could be loaded. -/
theorem mem_loadedPositions_iff {ts : List TypeDef} {k : Nat} :
    k ∈ loadedPositions 0 ts ↔ ∃ t, ts[k]? = some t ∧ t.info.unresolved = none := by
  rw [loadedPositions, List.mem_map]
  refine ⟨?_, ?_⟩
  · rintro ⟨⟨t, i⟩, hmem, rfl⟩
    obtain ⟨hmem, hload⟩ := List.mem_filter.mp hmem
    exact ⟨t, List.mem_zipIdx_iff_getElem?.mp hmem, by simpa using hload⟩
  · rintro ⟨t, ht, hload⟩
    exact ⟨(t, k), List.mem_filter.mpr ⟨List.mem_zipIdx_iff_getElem?.mpr ht, by simpa using hload⟩,
      rfl⟩

/-- The site of a type that is declared directly inside another and could be loaded. -/
theorem getElem?_indexOf_inner {outer : Site} (houter : outer ∈ sitesOfModules modules) {k : Nat}
    {t : TypeDef} (ht : outer.type.nested[k]? = some t) (hload : t.info.unresolved = none) :
    (sitesOfModules modules)[indexOf (sitesOfModules modules) (outer.address ++ [k])]?
      = some ⟨outer.module, outer.address ++ [k], outer.path, t⟩ := by
  have hencloses : outer.Encloses ⟨outer.module, outer.address ++ [k], outer.path, t⟩ :=
    ⟨rfl, rfl, k, rfl, ht⟩
  exact getElem?_indexOf (preordered_sites modules).nodup (hencloses.mem houter hload)

/-- **What is nested in an entry** are the numbers of the sites directly inside. Types that could not
be loaded have no numbers, and are not among them. -/
theorem mem_nested_entry_iff {outer : Site} (houter : outer ∈ sitesOfModules modules) (i j : Nat) :
    j ∈ (outer.entry (sitesOfModules modules) i).nested ↔
      ∃ inner, (sitesOfModules modules)[j]? = some inner ∧ outer.Encloses inner := by
  have hnodup := (preordered_sites modules).nodup
  refine ⟨?_, ?_⟩
  · intro hj
    obtain ⟨k, hk, rfl⟩ := List.mem_map.mp hj
    obtain ⟨t, ht, hload⟩ := mem_loadedPositions_iff.mp hk
    exact ⟨_, getElem?_indexOf_inner houter ht hload, rfl, rfl, k, rfl, ht⟩
  · rintro ⟨inner, hinner, hencloses⟩
    obtain ⟨k, haddress, ht⟩ := hencloses.declared
    have hload := loaded_of_mem (List.mem_of_getElem? hinner)
    refine List.mem_map.mpr ⟨k, mem_loadedPositions_iff.mpr ⟨_, ht, hload⟩, ?_⟩
    rw [← haddress, indexOf_eq hnodup hinner]

/-- Following these positions gives the types that could be loaded, in order. -/
theorem map_getElem?_loadedPositions (ts : List TypeDef) :
    (loadedPositions 0 ts).map (fun k => ts[k]?)
      = (ts.filter fun t => t.info.unresolved.isNone).map some := by
  -- What stands at the position of a type is the type.
  have hfst : ∀ x ∈ (ts.zipIdx).filter (fun x => x.1.info.unresolved.isNone),
      ts[x.2]? = some x.1 := by
    intro x hx
    exact List.mem_zipIdx_iff_getElem?.mp (List.mem_filter.mp hx).1
  rw [loadedPositions, List.map_map]
  calc _ = ((ts.zipIdx).filter fun x => x.1.info.unresolved.isNone).map (some ∘ Prod.fst) :=
        List.map_congr_left hfst
    _ = (((ts.zipIdx).map Prod.fst).filter fun t => t.info.unresolved.isNone).map some := by
        rw [List.filter_map, List.map_map]
        rfl
    _ = _ := by rw [List.zipIdx_map_fst]

/-- They are the types declared directly inside that could be loaded, in their order. -/
theorem getElem?_nested_entry {outer : Site} (houter : outer ∈ sitesOfModules modules) (i : Nat) :
    ((outer.entry (sitesOfModules modules) i).nested.map fun j =>
        (sitesOfModules modules)[j]?.map Site.type)
      = (outer.type.nested.filter fun t => t.info.unresolved.isNone).map some := by
  rw [← map_getElem?_loadedPositions, Site.entry, List.map_map]
  refine List.map_congr_left ?_
  intro k hk
  obtain ⟨t, ht, hload⟩ := mem_loadedPositions_iff.mp hk
  rw [Function.comp_apply, getElem?_indexOf_inner houter ht hload, ht]
  rfl

end Nesting

/-! ### Members -/

section Members

variable {modules : List Module}

/-- The entry at a position, with the site that it is the entry of. -/
theorem exists_site {i : Nat} {e : TypeEntry}
    (h : (SymbolTable.ofModules modules).types[i]? = some e) :
    ∃ s, (sitesOfModules modules)[i]? = some s ∧ e = s.entry (sitesOfModules modules) i := by
  rw [getElem?_types, Option.map_eq_some_iff] at h
  obtain ⟨s, hs, rfl⟩ := h
  exact ⟨s, hs, rfl⟩

/-- The number of a type is its position in the table. -/
theorem id_of_getElem? {i : Nat} {e : TypeEntry}
    (h : (SymbolTable.ofModules modules).types[i]? = some e) : e.id = i := by
  obtain ⟨s, -, rfl⟩ := exists_site h
  rfl

theorem type_of_mem_members {i : Nat} {e : TypeEntry} {m : MemberEntry}
    (h : (SymbolTable.ofModules modules).types[i]? = some e) (hm : m ∈ e.members) :
    m.type = i := by
  obtain ⟨s, -, rfl⟩ := exists_site h
  obtain ⟨⟨member, id⟩, -, rfl⟩ := List.mem_map.mp hm
  rfl

/-- The key of a member of a type of the table. It is made from the full name of the type, so members
of two types with one name can have one key. -/
theorem key_of_mem_members {e : TypeEntry}
    (he : e ∈ (SymbolTable.ofModules modules).types) {m : MemberEntry} (hm : m ∈ e.members) :
    m.key = m.member.key e.fullName := by
  obtain ⟨i, hi⟩ := List.mem_iff_getElem?.mp he
  obtain ⟨site, -, rfl⟩ := exists_site hi
  obtain ⟨⟨member, id⟩, -, rfl⟩ := List.mem_map.mp hm
  rfl

/-- **The members of a type** are numbered from the number of all members before it. Only those that
could be loaded count. -/
theorem members_map_id_entry {i : Nat} {e : TypeEntry}
    (h : (SymbolTable.ofModules modules).types[i]? = some e) :
    e.members.map MemberEntry.id
      = List.range' (((SymbolTable.ofModules modules).types.take i).flatMap TypeEntry.members).length
          e.members.length := by
  -- The entries before have as many members as their sites have loaded ones.
  have htake : (SymbolTable.ofModules modules).types.take i
      = entriesFrom (sitesOfModules modules) 0 ((sitesOfModules modules).take i) := by
    apply List.ext_getElem?
    intro j
    rw [ofModules_types, entriesFrom, entriesFrom, List.getElem?_take, List.getElem?_map,
      List.getElem?_map, List.getElem?_zipIdx, List.getElem?_zipIdx, List.getElem?_take]
    by_cases hj : j < i
    · rw [if_pos hj, if_pos hj]
    · rw [if_neg hj, if_neg hj]
      rfl
  -- The entry numbers its members on from there.
  obtain ⟨s, -, rfl⟩ := exists_site h
  rw [htake, length_members_entriesFrom, Site.entry, List.map_map, List.length_map,
    List.length_zipIdx]
  exact List.zipIdx_map_snd _ _

/-- **The members of a table** are numbered in its order. -/
theorem members_map_id (modules : List Module) :
    (SymbolTable.ofModules modules).members.map MemberEntry.id
      = List.range (SymbolTable.ofModules modules).members.length := by
  -- By induction on how many types are taken; each one continues the numbers of those before.
  have htake : ∀ n, (((SymbolTable.ofModules modules).types.take n).flatMap TypeEntry.members).map
      MemberEntry.id = List.range
        (((SymbolTable.ofModules modules).types.take n).flatMap TypeEntry.members).length := by
    intro n
    induction n with
    | zero => rfl
    | succ n ih =>
      rw [List.take_add_one]
      cases hn : (SymbolTable.ofModules modules).types[n]? with
      | none => simpa using ih
      | some e =>
        rw [Option.toList_some, List.flatMap_append, List.flatMap_singleton, List.map_append, ih,
          members_map_id_entry hn, List.length_append, List.range_eq_range', List.range_eq_range',
          ← List.range'_append_1, Nat.zero_add]
  have hall := htake (SymbolTable.ofModules modules).types.length
  rw [List.take_length] at hall
  exact hall

/-- A member is in the type that it names. So the type of a member is found without searching. -/
theorem mem_members_iff {m : MemberEntry} :
    m ∈ (SymbolTable.ofModules modules).members ↔
      ∃ e, (SymbolTable.ofModules modules).types[m.type]? = some e ∧ m ∈ e.members := by
  rw [SymbolTable.members, List.mem_flatMap]
  refine ⟨?_, ?_⟩
  · rintro ⟨e, he, hm⟩
    obtain ⟨i, hi⟩ := List.mem_iff_getElem?.mp he
    rw [type_of_mem_members hi hm]
    exact ⟨e, hi, hm⟩
  · rintro ⟨e, he, hm⟩
    exact ⟨e, List.mem_of_getElem? he, hm⟩

theorem nodup_members_map_id (modules : List Module) :
    ((SymbolTable.ofModules modules).members.map MemberEntry.id).Nodup := by
  rw [members_map_id]
  exact List.nodup_range

/-- The number of a member is among those of a type exactly if the type is its own. Members are
numbered through the whole table, so no two types share a number. -/
theorem id_mem_iff_type_eq {m : MemberEntry} {e : TypeEntry}
    (hm : m ∈ (SymbolTable.ofModules modules).members)
    (he : e ∈ (SymbolTable.ofModules modules).types) :
    m.id ∈ e.members.map MemberEntry.id ↔ m.type = e.id := by
  obtain ⟨i, hi⟩ := List.mem_iff_getElem?.mp he
  rw [id_of_getElem? hi]
  refine ⟨?_, ?_⟩
  · intro hid
    -- No other member has the same number.
    obtain ⟨m', hm', heq⟩ := List.mem_map.mp hid
    have hmem : m' ∈ (SymbolTable.ofModules modules).members := List.mem_flatMap.mpr ⟨e, he, hm'⟩
    obtain rfl := List.inj_on_of_nodup_map (nodup_members_map_id modules) hmem hm heq
    exact type_of_mem_members hi hm'
  -- The member is in the type that it names.
  · rintro rfl
    obtain ⟨e', he', hm'⟩ := mem_members_iff.mp hm
    obtain rfl := Option.some.inj (hi.symm.trans he')
    exact List.mem_map_of_mem hm'

end Members

/-! ### Symbols -/

section Symbols

theorem types_map_id (modules : List Module) :
    (SymbolTable.ofModules modules).types.map TypeEntry.id
      = List.range (SymbolTable.ofModules modules).types.length := by
  apply List.ext_getElem?
  intro i
  rw [List.getElem?_map]
  cases hi : (SymbolTable.ofModules modules).types[i]? with
  | none =>
    rw [Option.map_none, List.getElem?_eq_none]
    simpa using List.getElem?_eq_none_iff.mp hi
  | some e =>
    have hlt := (List.getElem?_eq_some_iff.mp hi).1
    rw [Option.map_some, id_of_getElem? hi, List.getElem?_range hlt]

/-- **The symbols of a table** are its types and its members. They stand type by type, and up to order
this is all types and then all members. -/
theorem symbols_handles (modules : List Module) :
    ((SymbolTable.ofModules modules).symbols.map Symbol.handle).Perm
      ((List.range (SymbolTable.ofModules modules).types.length).map (Handle.mk · none) ++
        (SymbolTable.ofModules modules).members.map fun m => ⟨m.type, some m.id⟩) := by
  have hmembers : (SymbolTable.ofModules modules).members.map (fun m => Handle.mk m.type (some m.id))
      = (SymbolTable.ofModules modules).types.flatMap fun e =>
          e.members.map fun m => ⟨e.id, some m.id⟩ := by
    rw [SymbolTable.members, List.map_flatMap]
    refine List.flatMap_congr ?_
    intro e he
    obtain ⟨i, hi⟩ := List.mem_iff_getElem?.mp he
    refine List.map_congr_left ?_
    intro m hm
    rw [type_of_mem_members hi hm, id_of_getElem? hi]
  have hsymbols : (SymbolTable.ofModules modules).symbols.map Symbol.handle
      = (SymbolTable.ofModules modules).types.flatMap fun e =>
          ⟨e.id, none⟩ :: e.members.map fun m => ⟨e.id, some m.id⟩ := by
    rw [SymbolTable.symbols, List.map_flatMap]
    refine List.flatMap_congr ?_
    intro e _
    rw [TypeEntry.symbols, List.map_cons, List.map_map]
    rfl
  -- Each type stands before its members in one list, and all types before all members in the other.
  rw [hmembers, hsymbols, ← types_map_id, List.map_map]
  exact (List.map_append_flatMap_perm _ _ _).symm

/-- **No two symbols have the same handle.** Anything that is said of a symbol in a report can be
traced back to it by its handle. -/
theorem nodup_handles (modules : List Module) :
    ((SymbolTable.ofModules modules).symbols.map Symbol.handle).Nodup := by
  rw [(symbols_handles modules).nodup_iff]
  -- Types differ in their numbers, members too, and a type is no member.
  refine List.Nodup.append ?_ ?_ ?_
  · refine List.nodup_range.map ?_
    intro i j h
    exact (Handle.mk.inj h).1
  · refine List.Nodup.of_map Handle.member ?_
    have hsome := (nodup_members_map_id modules).map (Option.some_injective Nat)
    rw [List.map_map] at hsome ⊢
    exact hsome
  · intro h htype hmember
    obtain ⟨i, -, rfl⟩ := List.mem_map.mp htype
    obtain ⟨m, -, heq⟩ := List.mem_map.mp hmember
    exact absurd (congrArg Handle.member heq) (by simp)

end Symbols

/-! ### The whole table -/

/-- What it means that a table lists some sites and nothing else. -/
structure SymbolTable.Flattens (t : SymbolTable) (sites : List Site) : Prop where
  /-- The types are the entries of the sites. -/
  types : t.types = entriesFrom sites 0 sites
  /-- A type has as its parent the number of the type directly around it. -/
  parent : ∀ (j : Nat) (inner : Site) (e : TypeEntry), sites[j]? = some inner →
    t.types[j]? = some e → ∀ i,
      (e.parent = some i ↔ ∃ outer, sites[i]? = some outer ∧ outer.Encloses inner)
  /-- Types stand after the ones around them. -/
  parent_lt : ∀ e ∈ t.types, ∀ p ∈ e.parent, p < e.id
  /-- A type has as nested the numbers of the types directly inside it, -/
  nested : ∀ (i : Nat) (outer : Site) (e : TypeEntry), sites[i]? = some outer →
    t.types[i]? = some e → ∀ j,
      (j ∈ e.nested ↔ ∃ inner, sites[j]? = some inner ∧ outer.Encloses inner)
  /-- in the order in which these are declared. -/
  nested_order : ∀ (i : Nat) (outer : Site) (e : TypeEntry), sites[i]? = some outer →
    t.types[i]? = some e →
      (e.nested.map fun j => sites[j]?.map Site.type)
        = (outer.type.nested.filter fun u => u.info.unresolved.isNone).map some
  /-- The numbers of the members of a type begin where those of the types before it end, -/
  members_tile : ∀ (i : Nat) (e : TypeEntry), t.types[i]? = some e →
    e.members.map MemberEntry.id
      = List.range' ((t.types.take i).flatMap TypeEntry.members).length e.members.length
  /-- and all members have the numbers up to the number of members. -/
  members : t.members.map MemberEntry.id = List.range t.members.length
  /-- A member names the type that has its number. -/
  member_type : ∀ m ∈ t.members, ∀ e ∈ t.types,
    (m.id ∈ e.members.map MemberEntry.id ↔ m.type = e.id)
  /-- Each type and each member is a symbol, -/
  symbols : (t.symbols.map Symbol.handle).Perm
    ((List.range t.types.length).map (Handle.mk · none) ++
      t.members.map fun m => ⟨m.type, some m.id⟩)
  /-- once. -/
  symbols_nodup : (t.symbols.map Symbol.handle).Nodup
  symbolCount : t.symbols.length = t.symbolCount

/-- **The table of some modules flattens their trees.** The fields of the structure are those of this
module, one by one. -/
theorem ofModules_flattens (modules : List Module) :
    (SymbolTable.ofModules modules).Flattens (sitesOfModules modules) where
  types := ofModules_types modules
  -- An entry at a position is that of the site there, which is where all of these begin.
  parent := by
    intro j inner e hinner he i
    rw [getElem?_types, hinner] at he
    obtain rfl := Option.some.inj he
    exact parent_entry_iff (List.mem_of_getElem? hinner) i j
  parent_lt := by
    intro e he p hp
    obtain ⟨j, hj⟩ := List.mem_iff_getElem?.mp he
    obtain ⟨inner, hinner, rfl⟩ := exists_site hj
    obtain ⟨outer, houter, hencloses⟩ :=
      (parent_entry_iff (List.mem_of_getElem? hinner) p j).mp hp
    exact hencloses.lt houter hinner
  nested := by
    intro i outer e houter he j
    rw [getElem?_types, houter] at he
    obtain rfl := Option.some.inj he
    exact mem_nested_entry_iff (List.mem_of_getElem? houter) i j
  nested_order := by
    intro i outer e houter he
    rw [getElem?_types, houter] at he
    obtain rfl := Option.some.inj he
    exact getElem?_nested_entry (List.mem_of_getElem? houter) i
  members_tile := fun _ _ => members_map_id_entry
  members := members_map_id modules
  member_type := fun _ hm _ he => id_mem_iff_type_eq hm he
  symbols := symbols_handles modules
  symbols_nodup := nodup_handles modules
  symbolCount := by
    have hlength := (symbols_handles modules).length_eq
    rw [List.length_map, List.length_append, List.length_map, List.length_map,
      List.length_range] at hlength
    exact hlength

end CilLint
