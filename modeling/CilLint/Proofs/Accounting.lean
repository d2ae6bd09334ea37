import CilLint.Proofs.Findings
import CilLint.Proofs.Place
import CilLint.Proofs.TableShape

/-!
# Nothing is lost

The table leaves out a type that could not be loaded, with all that is nested in it, and counts it
once. So the types that some modules declare are of three sorts: those in the table, those that are
counted, and those inside a counted one.

`nodesOfModules` lists all types with where they stand, loaded or not, in the order of their
declaration; it is the recursion of `sitesOfModules` without the test. Of a type and the types around
it only the marks matter, and these stand in `Site.path`:

* the types without any mark are the sites (`filter_isReached_nodesOfTypes`), so they are what the
  table has;
* the types with a mark of their own and none around them are the ones that are counted
  (`countP_isSkipped_nodesOfTypes`);
* what remains has a mark around it, and the outermost such mark is on a counted type
  (`isInsideSkipped_iff`).

`SymbolTable.AccountsFor` puts this together with what becomes of members and of the texts of faults.
-/

namespace CilLint

/-! ### All types -/

mutual

/-- A type and those nested in it. -/
def nodesOfType (module : Module) (address : List Nat) (enclosing : List TypeInfo) :
    TypeDef → List Site
  | .node info members nested =>
    ⟨module, address, enclosing, .node info members nested⟩ ::
      nodesOfTypes module address (enclosing ++ [info]) 0 nested

/-- The types that are declared next to each other from `position` on, and those nested in them. -/
def nodesOfTypes (module : Module) (address : List Nat) (enclosing : List TypeInfo)
    (position : Nat) : List TypeDef → List Site
  | [] => []
  | t :: ts =>
    nodesOfType module (address ++ [position]) enclosing t ++
      nodesOfTypes module address enclosing (position + 1) ts

end

/-- **All types that some modules declare,** whether or not they could be loaded. -/
def nodesOfModules (modules : List Module) : List Site :=
  modules.zipIdx.flatMap fun x => nodesOfTypes x.1 [x.2] [] 0 x.1.manifest.types

theorem nodesOfTypes_cons (m : Module) (address : List Nat) (enclosing : List TypeInfo)
    (position : Nat) (info : TypeInfo) (members : List Member) (nested ts : List TypeDef) :
    nodesOfTypes m address enclosing position (.node info members nested :: ts)
      = ⟨m, address ++ [position], enclosing, .node info members nested⟩ ::
        (nodesOfTypes m (address ++ [position]) (enclosing ++ [info]) 0 nested ++
          nodesOfTypes m address enclosing (position + 1) ts) := rfl

theorem mem_nodesOfModules {modules : List Module} {s : Site} :
    s ∈ nodesOfModules modules ↔
      ∃ i m, modules[i]? = some m ∧ s ∈ nodesOfTypes m [i] [] 0 m.manifest.types := by
  rw [nodesOfModules, List.mem_flatMap]
  refine ⟨?_, ?_⟩
  · rintro ⟨⟨m, i⟩, hmem, hs⟩
    exact ⟨i, m, List.mem_zipIdx_iff_getElem?.mp hmem, hs⟩
  · rintro ⟨i, m, hmem, hs⟩
    exact ⟨⟨m, i⟩, List.mem_zipIdx_iff_getElem?.mpr hmem, hs⟩

/-- The types among some trees are what there is at the addresses in these trees. The trees stand from
`position` on, so a tree at place `k` of the list has the number `position + k` in its address. -/
theorem exists_node_iff {m : Module} {address : List Nat} {enclosing : List TypeInfo}
    {position : Nat} {ts : List TypeDef} {a : List Nat} {t : TypeDef} :
    (∃ s ∈ nodesOfTypes m address enclosing position ts, s.address = a ∧ s.type = t) ↔
      ∃ k ks, a = address ++ (position + k) :: ks ∧ ts[k]?.bind (TypeDef.inner? ks) = some t := by
  induction ts using TypeDef.forestInduction generalizing address enclosing position with
  | nil => simp [nodesOfTypes]
  | cons info members nested ts ihnested ihts =>
    rw [nodesOfTypes_cons]
    simp only [List.exists_mem_cons_iff, List.mem_append, or_and_right, exists_or]
    -- Both inductions give addresses that go on from where the trees stand.
    rw [ihnested, ihts]
    refine ⟨?_, ?_⟩
    · rintro (⟨rfl, rfl⟩ | ⟨k, ks, rfl, htype⟩ | ⟨k, ks, rfl, htype⟩)
      · exact ⟨0, [], rfl, rfl⟩
      · refine ⟨0, k :: ks, ?_, htype⟩
        rw [Nat.zero_add, List.append_assoc]
        rfl
      · exact ⟨k + 1, ks, by rw [Nat.add_right_comm, Nat.add_assoc], htype⟩
    · -- The position is that of the first type or of a later one, and below the first one the
      -- address ends or goes on into what is nested.
      rintro ⟨_ | k, ks, rfl, htype⟩
      · rcases ks with _ | ⟨k, ks⟩
        · exact .inl ⟨rfl, Option.some.inj htype⟩
        · refine .inr (.inl ⟨k, ks, ?_, htype⟩)
          rw [Nat.zero_add, List.append_assoc]
          rfl
      · exact .inr (.inr ⟨k, ks, by rw [Nat.add_right_comm, Nat.add_assoc], htype⟩)

/-- **A type is listed at each address that there is,** and at no other. So the list of nodes can be
checked against the modules, without knowing how it was made. -/
theorem typeAt?_eq_some_iff {modules : List Module} {a : List Nat} {t : TypeDef} :
    typeAt? modules a = some t ↔ ∃ s ∈ nodesOfModules modules, s.address = a ∧ s.type = t := by
  refine ⟨?_, ?_⟩
  · intro h
    -- An address of a type has a module and an outermost type at least.
    rcases a with _ | ⟨i, _ | ⟨k, ks⟩⟩
    · cases h
    · cases h
    · obtain ⟨m, hm, htype⟩ := Option.bind_eq_some_iff.mp h
      have hnode : ∃ s ∈ nodesOfTypes m [i] [] 0 m.manifest.types,
          s.address = i :: k :: ks ∧ s.type = t :=
        exists_node_iff.mpr ⟨k, ks, by rw [Nat.zero_add]; rfl, htype⟩
      obtain ⟨s, hs, haddress⟩ := hnode
      exact ⟨s, mem_nodesOfModules.mpr ⟨i, m, hm, hs⟩, haddress⟩
  · rintro ⟨s, hs, rfl, rfl⟩
    obtain ⟨i, m, hm, hs⟩ := mem_nodesOfModules.mp hs
    obtain ⟨k, ks, haddress, htype⟩ := exists_node_iff.mp ⟨s, hs, rfl, rfl⟩
    rw [haddress, Nat.zero_add]
    change modules[i]?.bind _ = _
    rw [hm]
    exact htype

/-- Among some trees the address goes on with the position of one of them. -/
theorem exists_address_of_mem_nodes {m : Module} {address : List Nat} {enclosing : List TypeInfo}
    {position : Nat} {ts : List TypeDef} {s : Site}
    (h : s ∈ nodesOfTypes m address enclosing position ts) :
    ∃ k ks, s.address = address ++ (position + k) :: ks := by
  obtain ⟨k, ks, haddress, -⟩ := exists_node_iff.mp ⟨s, h, rfl, rfl⟩
  exact ⟨k, ks, haddress⟩

/-- No two types among some trees have one address: a type has a shorter one than what is nested in
it, and its position tells it and what is nested in it from the types next to it. -/
theorem nodup_nodesOfTypes (m : Module) (address : List Nat) (enclosing : List TypeInfo)
    (position : Nat) (ts : List TypeDef) :
    ((nodesOfTypes m address enclosing position ts).map Site.address).Nodup := by
  induction ts using TypeDef.forestInduction generalizing address enclosing position with
  | nil => exact List.Pairwise.nil
  | cons info members nested ts ihnested ihts =>
    rw [nodesOfTypes_cons, List.map_cons, List.map_append, List.nodup_cons, List.nodup_append,
      List.mem_append]
    refine ⟨?_, ihnested _ _ _, ihts _ _ _, ?_⟩
    · -- What is nested in the first type has a longer address, later types have later positions.
      rintro (h | h)
      · obtain ⟨s, hs, heq⟩ := List.mem_map.mp h
        obtain ⟨k, ks, haddress⟩ := exists_address_of_mem_nodes hs
        rw [haddress] at heq
        simp at heq
      · obtain ⟨s, hs, heq⟩ := List.mem_map.mp h
        obtain ⟨k, ks, haddress⟩ := exists_address_of_mem_nodes hs
        rw [haddress] at heq
        have hposition := (List.cons.inj (List.append_cancel_left heq)).1
        omega
    -- What is nested in the first type has its position, and later types have others.
    · intro a ha b hb
      obtain ⟨s, hs, rfl⟩ := List.mem_map.mp ha
      obtain ⟨s', hs', rfl⟩ := List.mem_map.mp hb
      obtain ⟨k, ks, haddress⟩ := exists_address_of_mem_nodes hs
      obtain ⟨k', ks', haddress'⟩ := exists_address_of_mem_nodes hs'
      rw [haddress, haddress', List.append_assoc]
      intro heq
      have hposition := (List.cons.inj (List.append_cancel_left heq)).1
      omega

/-- **No type is listed twice.** -/
theorem nodup_nodes (modules : List Module) :
    ((nodesOfModules modules).map Site.address).Nodup := by
  rw [nodesOfModules, List.map_flatMap, List.nodup_flatMap]
  refine ⟨fun x _ => nodup_nodesOfTypes _ _ _ _ _, ?_⟩
  -- Addresses in two modules begin with different numbers.
  have hpositions : modules.zipIdx.Pairwise fun x y => x.2 ≠ y.2 := by
    refine List.pairwise_map.mp ?_
    change (modules.zipIdx.map Prod.snd).Nodup
    rw [List.zipIdx_map_snd]
    exact List.nodup_range'
  refine hpositions.imp ?_
  intro x y hne a ha ha'
  obtain ⟨s, hs, rfl⟩ := List.mem_map.mp ha
  obtain ⟨s', hs', heq⟩ := List.mem_map.mp ha'
  obtain ⟨k, ks, haddress⟩ := exists_address_of_mem_nodes hs
  obtain ⟨k', ks', haddress'⟩ := exists_address_of_mem_nodes hs'
  rw [haddress, haddress'] at heq
  exact hne (List.cons.inj heq).1.symm

/-- So a type is known by its address. -/
theorem eq_of_address_eq {modules : List Module} {s s' : Site} (hs : s ∈ nodesOfModules modules)
    (hs' : s' ∈ nodesOfModules modules) (h : s.address = s'.address) : s = s' :=
  List.inj_on_of_nodup_map (nodup_nodes modules) hs hs' h

/-! ### Types around types -/

/-- A type among some trees is a root of one of them, or the next one outwards is among them too. This
is what going outwards one step at a time needs. -/
theorem declaredAmong_or_enclosed {m : Module} {address : List Nat} {enclosing : List TypeInfo}
    {position : Nat} {ts : List TypeDef} {s : Site}
    (h : s ∈ nodesOfTypes m address enclosing position ts) :
    s.DeclaredAmong m address enclosing position ts ∨
      ∃ outer ∈ nodesOfTypes m address enclosing position ts, outer.Encloses s := by
  induction ts using TypeDef.forestInduction generalizing address enclosing position with
  | nil => exact absurd h List.not_mem_nil
  | cons info members nested ts ihnested ihts =>
    rw [Site.declaredAmong_cons]
    rw [nodesOfTypes_cons, List.mem_cons, List.mem_append] at h
    simp only [nodesOfTypes_cons, List.exists_mem_cons_iff, List.mem_append, or_and_right, exists_or]
    -- It is the first root, or nested in it, or in a later tree.
    rcases h with rfl | h | h
    · exact .inl (.inl rfl)
    · rcases ihnested h with hdeclared | houter
      · exact .inr (.inl ((Site.encloses_iff_declaredAmong _ _).mpr hdeclared))
      · exact .inr (.inr (.inl houter))
    · rcases ihts h with hdeclared | houter
      · exact .inl (.inr hdeclared)
      · exact .inr (.inr (.inr houter))

/-- **Induction from the outermost types inwards.** What holds of the outermost types, and passes from
a type to those that are declared directly in it, holds of all types of some modules. -/
theorem nodes_induction {modules : List Module} {motive : Site → Prop}
    (outermost : ∀ s ∈ nodesOfModules modules, s.enclosing = [] → s.address.length = 2 → motive s)
    (inner : ∀ outer ∈ nodesOfModules modules, ∀ s ∈ nodesOfModules modules, outer.Encloses s →
      motive outer → motive s) :
    ∀ s ∈ nodesOfModules modules, motive s := by
  intro s hs
  -- The induction is on the length of addresses, which is the depth of a type.
  induction hn : s.address.length using Nat.strongRecOn generalizing s with
  | ind n ih =>
    obtain ⟨i, m, hm, hnode⟩ := mem_nodesOfModules.mp hs
    rcases declaredAmong_or_enclosed hnode with hdeclared | ⟨outer, houter, hencloses⟩
    · obtain ⟨k, haddress, -⟩ := hdeclared.declared
      exact outermost s hs hdeclared.enclosing (by rw [haddress]; rfl)
    · have houter := mem_nodesOfModules.mpr ⟨i, m, hm, houter⟩
      obtain ⟨k, haddress, -⟩ := hencloses.declared
      refine inner outer houter s hs hencloses (ih _ ?_ outer houter rfl)
      rw [← hn, haddress, List.length_append]
      exact Nat.lt_succ_self _

/-- An address has the position of a module and that of an outermost type at least. -/
theorem two_le_length_of_mem_nodes {modules : List Module} {s : Site}
    (h : s ∈ nodesOfModules modules) : 2 ≤ s.address.length := by
  obtain ⟨i, m, -, hs⟩ := mem_nodesOfModules.mp h
  obtain ⟨k, ks, haddress⟩ := exists_address_of_mem_nodes hs
  rw [haddress]
  exact Nat.le_add_left 2 ks.length

namespace Site

/-- A type is declared inside another one, directly or not. -/
def LiesInside (s outer : Site) : Prop := outer.address <+: s.address ∧ outer.address ≠ s.address

/-- What is declared directly in a type is inside it. Its address is that of the type with one more
number. -/
theorem Encloses.liesInside {outer s : Site} (h : outer.Encloses s) : s.LiesInside outer := by
  obtain ⟨k, haddress, -⟩ := h.declared
  rw [LiesInside, haddress]
  exact ⟨List.prefix_append _ _, by simp⟩

theorem LiesInside.trans {a b c : Site} (hab : a.LiesInside b) (hbc : b.LiesInside c) :
    a.LiesInside c := by
  refine ⟨hbc.1.trans hab.1, ?_⟩
  intro heq
  exact hbc.2 (hbc.1.eq_of_length (le_antisymm hbc.1.length_le (heq ▸ hab.1.length_le)))

/-- What is around the outer one of two types, and the type itself, is around the inner one. So a mark
on a type is seen from everywhere inside it. -/
theorem LiesInside.path_prefix {modules : List Module} {outer : Site}
    (houter : outer ∈ nodesOfModules modules) :
    ∀ s ∈ nodesOfModules modules, s.LiesInside outer → outer.path <+: s.enclosing := by
  refine nodes_induction ?_ ?_
  · -- An outermost type has no shorter address that begins its own.
    intro s hs _ hlength h
    have heq := h.1.eq_of_length_le (hlength ▸ two_le_length_of_mem_nodes houter)
    exact absurd heq h.2
  · intro next hnext s hs hencloses ih h
    obtain ⟨k, haddress, -⟩ := hencloses.declared
    rw [hencloses.enclosing]
    -- The outer type is the next one outwards, or lies around that one.
    by_cases heq : outer.address = next.address
    · rw [eq_of_address_eq houter hnext heq]
    · have hbegins : outer.address <+: next.address := by
        rcases List.prefix_concat_iff.mp (haddress ▸ h.1) with hsame | hbegins
        · exact absurd (hsame.trans haddress.symm) h.2
        · exact hbegins
      exact (ih ⟨hbegins, heq⟩).trans (List.prefix_append _ _)

/-! ### Three sorts of types -/

/-- Whether a type and all types around it could be loaded. -/
def isReached (s : Site) : Bool := s.path.all fun info => info.unresolved.isNone

/-- **Whether a type is left out and counted:** it could not be loaded, and every type around it
could. -/
def isSkipped (s : Site) : Bool :=
  s.type.info.unresolved.isSome && s.enclosing.all fun info => info.unresolved.isNone

/-- **A type is lost with another one,** inside which it is declared and which is left out. -/
def IsInsideSkipped (modules : List Module) (s : Site) : Prop :=
  ∃ outer ∈ nodesOfModules modules, outer.isSkipped = true ∧ s.LiesInside outer

theorem isReached_eq (s : Site) :
    s.isReached = (s.type.info.unresolved.isNone
      && s.enclosing.all fun info => info.unresolved.isNone) := by
  rw [isReached, path, List.all_append, Bool.and_comm]
  simp

end Site

/-- **What is inside a type that is left out** is what has a type around it that could not be loaded.
There may be several of them, and then the outermost one is the type that is left out. -/
theorem isInsideSkipped_iff {modules : List Module} {s : Site} (h : s ∈ nodesOfModules modules) :
    s.IsInsideSkipped modules ↔
      (s.enclosing.all fun info => info.unresolved.isNone) = false := by
  refine ⟨?_, ?_⟩
  -- The type that is left out is itself one of those around.
  · rintro ⟨outer, houter, hskipped, hinside⟩
    have hmem : outer.type.info ∈ s.enclosing :=
      (hinside.path_prefix houter s h).subset (by simp [Site.path])
    rw [Site.isSkipped, Bool.and_eq_true] at hskipped
    refine List.all_eq_false.mpr ⟨_, hmem, ?_⟩
    rw [Bool.not_eq_true, ← Option.not_isSome, hskipped.1]
    rfl
  · -- Outwards from a type with a mark around it there is a first type that has none around it.
    refine nodes_induction (motive := fun s => (s.enclosing.all fun info => info.unresolved.isNone)
      = false → s.IsInsideSkipped modules) ?_ ?_ s h
    · intro s _ houtermost _ hmark
      simp [houtermost] at hmark
    · intro outer houter s _ hencloses ih hmark
      by_cases houtside : (outer.enclosing.all fun info => info.unresolved.isNone) = true
      · refine ⟨outer, houter, ?_, hencloses.liesInside⟩
        rw [hencloses.enclosing, ← Site.isReached, Site.isReached_eq, houtside, Bool.and_true] at hmark
        rw [Site.isSkipped, houtside, Bool.and_true, ← Option.not_isNone, hmark]
        rfl
      · obtain ⟨first, hfirst, hskipped, hinside⟩ := ih (by simpa using houtside)
        exact ⟨first, hfirst, hskipped, hencloses.liesInside.trans hinside⟩

/-! ### What the table has -/

/-- The types that are reached are the sites, if all around them could be loaded. If not, then none of
them is reached, which is what the induction needs for trees that are nested in a type with a mark. -/
theorem filter_isReached_nodesOfTypes (m : Module) (address : List Nat) (enclosing : List TypeInfo)
    (position : Nat) (ts : List TypeDef) :
    (nodesOfTypes m address enclosing position ts).filter Site.isReached
      = if (enclosing.all fun info => info.unresolved.isNone) = true then
          sitesOfTypes m address enclosing position ts
        else [] := by
  induction ts using TypeDef.forestInduction generalizing address enclosing position with
  | nil => simp [nodesOfTypes]
  | cons info members nested ts ihnested ihts =>
    have hfirst : Site.isReached
        ⟨m, address ++ [position], enclosing, .node info members nested⟩
        = (info.unresolved.isNone && enclosing.all fun info => info.unresolved.isNone) :=
      Site.isReached_eq _
    rw [nodesOfTypes_cons, List.filter_cons, List.filter_append, ihnested, ihts, hfirst,
      sitesOfTypes_cons, List.all_append]
    -- If the first type has a mark, nothing nested in it is reached. If a type around has one,
    -- nothing is.
    cases hload : info.unresolved with
    | some reason => simp [sitesOfType_unresolved m _ _ hload, hload]
    | none =>
      rw [sitesOfType_loaded m _ _ hload]
      by_cases hall : (enclosing.all fun info => info.unresolved.isNone) = true
      · simp [hall, hload]
      · simp [hall]

/-- **The types that are reached are the sites** of the modules. -/
theorem filter_isReached_nodes (modules : List Module) :
    (nodesOfModules modules).filter Site.isReached = sitesOfModules modules := by
  rw [nodesOfModules, List.filter_flatMap]
  exact List.flatMap_congr fun x _ => filter_isReached_nodesOfTypes x.1 [x.2] [] 0 x.1.manifest.types

theorem mem_sites_iff {modules : List Module} {s : Site} :
    s ∈ sitesOfModules modules ↔ s ∈ nodesOfModules modules ∧ s.isReached = true := by
  rw [← filter_isReached_nodes, List.mem_filter]

/-- The entry of a type, if the table has it. -/
def SymbolTable.entryOf? (t : SymbolTable) (modules : List Module) (s : Site) : Option TypeEntry :=
  t.types[indexOf (sitesOfModules modules) s.address]?

theorem entryOf?_of_getElem? {modules : List Module} {s : Site} {i : Nat}
    (h : (sitesOfModules modules)[i]? = some s) :
    (SymbolTable.ofModules modules).entryOf? modules s
      = some (s.entry (sitesOfModules modules) i) := by
  rw [SymbolTable.entryOf?, indexOf_eq (preordered_sites modules).nodup h, getElem?_types, h]
  rfl

/-- A type that is not reached has no entry. Entries are looked up by address, and no site has this
one. -/
theorem entryOf?_of_not_isReached {modules : List Module} {s : Site}
    (hs : s ∈ nodesOfModules modules) (h : s.isReached = false) :
    (SymbolTable.ofModules modules).entryOf? modules s = none := by
  -- Otherwise a site has this address, and so it is this type.
  rw [SymbolTable.entryOf?, getElem?_types, Option.map_eq_none_iff, List.getElem?_eq_none_iff]
  refine (List.findIdx_eq_length_of_false ?_).ge
  intro s' hs'
  rw [beq_eq_false_iff_ne]
  intro heq
  obtain ⟨hnode, hreached⟩ := mem_sites_iff.mp hs'
  rw [eq_of_address_eq hnode hs heq, h] at hreached
  cases hreached

/-- **A type is in the table** exactly if it is reached. -/
theorem isSome_entryOf? {modules : List Module} {s : Site} (hs : s ∈ nodesOfModules modules) :
    ((SymbolTable.ofModules modules).entryOf? modules s).isSome = s.isReached := by
  cases h : s.isReached with
  | true =>
    obtain ⟨i, hi⟩ := List.mem_iff_getElem?.mp (mem_sites_iff.mpr ⟨hs, h⟩)
    rw [entryOf?_of_getElem? hi]
    rfl
  | false =>
    rw [entryOf?_of_not_isReached hs h]
    rfl

/-- **The table has the entries of the types that have one,** in the order of their declaration and
nothing else. -/
theorem filterMap_entryOf? (modules : List Module) :
    (nodesOfModules modules).filterMap ((SymbolTable.ofModules modules).entryOf? modules)
      = (SymbolTable.ofModules modules).types := by
  -- Types that are not reached have no entry, and the others are the sites in their order.
  have hsites : (nodesOfModules modules).filterMap ((SymbolTable.ofModules modules).entryOf? modules)
      = (sitesOfModules modules).filterMap
          ((SymbolTable.ofModules modules).entryOf? modules) := by
    rw [← filter_isReached_nodes, List.filterMap_filter]
    refine List.filterMap_congr fun s hs => ?_
    cases h : s.isReached with
    | true => rfl
    | false => exact entryOf?_of_not_isReached hs h
  rw [hsites, ofModules_types, entriesFrom]
  nth_rewrite 1 [← List.zipIdx_map_fst 0 (sitesOfModules modules)]
  rw [List.filterMap_map, ← List.filterMap_eq_map]
  refine List.filterMap_congr fun x hx => ?_
  exact entryOf?_of_getElem? (List.mem_zipIdx_iff_getElem?.mp hx)

/-! ### What is counted -/

/-- The skips of members are no skips of types, and there is one for each member that could not be
loaded. -/
theorem countP_isType_memberSkips (typeName : String) (members : List Member) :
    (memberSkips typeName members).countP Skip.isType = 0 := by
  rw [List.countP_eq_zero, memberSkips]
  intro skip hskip
  obtain ⟨m, -, hm⟩ := List.mem_filterMap.mp hskip
  obtain ⟨reason, -, rfl⟩ := Option.map_eq_some_iff.mp hm
  exact Bool.false_ne_true

theorem countP_not_isType_memberSkips (typeName : String) (members : List Member) :
    ((memberSkips typeName members).countP fun skip => !skip.isType)
      = members.countP fun m => m.unresolved.isSome := by
  induction members with
  | nil => rfl
  | cons m members ih =>
    rw [memberSkips, List.filterMap_cons, List.countP_cons]
    cases hload : m.unresolved with
    | none => exact ih
    | some reason =>
      rw [← ih]
      exact List.countP_cons_of_pos rfl

/-- The types that are left out are counted, if all around them could be loaded. If not, then none of
them is left out: they went with a type around them. -/
theorem countP_isSkipped_nodesOfTypes (m : Module) (address : List Nat) (enclosing : List TypeInfo)
    (position : Nat) (outer : Option String) (ts : List TypeDef) :
    (nodesOfTypes m address enclosing position ts).countP Site.isSkipped
      = if (enclosing.all fun info => info.unresolved.isNone) = true then
          (skipsOfTypes outer ts).countP Skip.isType
        else 0 := by
  induction ts using TypeDef.forestInduction generalizing address enclosing position outer with
  | nil => simp [nodesOfTypes, skipsOfTypes]
  | cons info members nested ts ihnested ihts =>
    have hfirst : Site.isSkipped ⟨m, address ++ [position], enclosing, .node info members nested⟩
        = (info.unresolved.isSome && enclosing.all fun info => info.unresolved.isNone) := rfl
    rw [nodesOfTypes_cons, List.countP_cons, List.countP_append, hfirst,
      ihnested _ _ _ (some (info.fullName outer)), ihts _ _ _ outer, skipsOfTypes, List.countP_append,
      List.all_append]
    -- Inside a type that could not be loaded nothing is counted, on either side.
    by_cases hall : (enclosing.all fun info => info.unresolved.isNone) = true
    · cases hload : info.unresolved with
      | some reason =>
        simp [skipsOfType, hall, hload, Skip.isType, Nat.add_comm]
      | none => simp [skipsOfType, hall, hload, countP_isType_memberSkips]
    · simp [hall]

/-- The members that could not be loaded are counted, in the types that are in the table. Members of
other types are neither in the table nor counted. -/
theorem countP_unresolved_sitesOfTypes (m : Module) (address : List Nat)
    (enclosing : List TypeInfo) (position : Nat) (outer : Option String) (ts : List TypeDef) :
    (((sitesOfTypes m address enclosing position ts).flatMap fun s => s.type.members).countP
        fun m => m.unresolved.isSome)
      = (skipsOfTypes outer ts).countP fun skip => !skip.isType := by
  induction ts using TypeDef.forestInduction generalizing address enclosing position outer with
  | nil => rfl
  | cons info members nested ts ihnested ihts =>
    rw [sitesOfTypes_cons, skipsOfTypes, List.flatMap_append, List.countP_append, List.countP_append,
      ihts _ _ _ outer]
    congr 1
    -- A type that could not be loaded adds no member to either side.
    cases hload : info.unresolved with
    | some reason => simp [sitesOfType_unresolved m _ _ hload, skipsOfType, hload, Skip.isType]
    | none =>
      simp only [sitesOfType_loaded m _ _ hload, skipsOfType, hload]
      rw [List.flatMap_cons, List.countP_append, List.countP_append,
        ihnested _ _ _ (some (info.fullName outer)), countP_not_isType_memberSkips]
      rfl

/-- A module reports what it leaves out of its outermost types first. Apart from that the skips stand
in the order of declaration, so counting them is the same. -/
theorem perm_moduleSkips (m : Module) :
    (moduleSkips m).Perm (skipsOfTypes none m.manifest.types) := by
  rw [moduleSkips]
  induction m.manifest.types with
  | nil => exact List.Perm.refl _
  | cons t ts ih =>
    rw [skipsOfTypes, Enumeration.outermostSkips_cons]
    cases hload : t.info.unresolved with
    -- This type is reported ahead of all that stands before it here.
    | some reason =>
      have hskips : skipsOfType none t = [.type (t.info.fullName none) reason] := by
        cases t with
        | node info members nested =>
          change info.unresolved = some reason at hload
          rw [skipsOfType, hload]
          rfl
      rw [List.filter_cons_of_neg (by simp [hload]), hskips, Option.map_some, Option.toList_some,
        List.append_assoc]
      exact List.perm_middle.trans (ih.cons _)
    | none =>
      rw [List.filter_cons_of_pos (by simp [hload]), List.flatMap_cons, Option.map_none,
        Option.toList_none, List.append_nil]
      exact (List.perm_append_comm_assoc _ _ _).trans (ih.append_left _)

/-- **The number of types left out** is that of the types with a mark of their own and none around
them. -/
theorem skippedTypes_ofModules (modules : List Module) :
    (SymbolTable.ofModules modules).skippedTypes
      = (nodesOfModules modules).countP Site.isSkipped := by
  rw [SymbolTable.skippedTypes, ofModules_skips, nodesOfModules, List.countP_flatMap,
    List.countP_flatMap]
  nth_rewrite 1 [← List.zipIdx_map_fst 0 modules]
  rw [List.map_map]
  refine congrArg List.sum (List.map_congr_left fun x _ => ?_)
  exact ((perm_moduleSkips x.1).countP_eq _).trans
    (countP_isSkipped_nodesOfTypes x.1 [x.2] [] 0 none x.1.manifest.types).symm

/-- **The number of members left out** is that of the members with a mark, in types that are in the
table. -/
theorem skippedMembers_ofModules (modules : List Module) :
    (SymbolTable.ofModules modules).skippedMembers
      = ((sitesOfModules modules).flatMap fun s => s.type.members).countP
          fun m => m.unresolved.isSome := by
  rw [SymbolTable.skippedMembers, ofModules_skips, sitesOfModules, sitesFrom, List.flatMap_assoc,
    List.countP_flatMap, List.countP_flatMap]
  nth_rewrite 1 [← List.zipIdx_map_fst 0 modules]
  rw [List.map_map]
  refine congrArg List.sum (List.map_congr_left fun x _ => ?_)
  exact ((perm_moduleSkips x.1).countP_eq _).trans
    (countP_unresolved_sitesOfTypes x.1 [x.2] [] 0 none x.1.manifest.types).symm

/-! ### Tables with nothing left out -/

/-- Trees are loaded if no type and no member in them has a mark. -/
theorem areLoaded_iff (m : Module) (address : List Nat) (enclosing : List TypeInfo)
    (position : Nat) (ts : List TypeDef) :
    TypeDef.areLoaded ts = true ↔
      ∀ s ∈ nodesOfTypes m address enclosing position ts,
        s.type.info.unresolved = none ∧ ∀ member ∈ s.type.members, member.unresolved = none := by
  induction ts using TypeDef.forestInduction generalizing address enclosing position with
  | nil => simp [TypeDef.areLoaded, nodesOfTypes]
  | cons info members nested ts ihnested ihts =>
    rw [TypeDef.areLoaded, TypeDef.isLoaded, nodesOfTypes_cons, List.forall_mem_cons,
      List.forall_mem_append, ← ihnested, ← ihts, Bool.and_eq_true, Bool.and_eq_true,
      Bool.and_eq_true, List.all_eq_true]
    simp only [Option.isNone_iff_eq_none, and_assoc]
    rfl

/-- **A table is complete** if no type and no member of any module has a mark, at whatever depth. -/
theorem isComplete_iff {modules : List Module} :
    (SymbolTable.ofModules modules).isComplete = true ↔
      ∀ s ∈ nodesOfModules modules,
        s.type.info.unresolved = none ∧ ∀ m ∈ s.type.members, m.unresolved = none := by
  -- The recursion over trees asks the same of each tree of a list.
  have hall : ∀ ts : List TypeDef,
      TypeDef.areLoaded ts = true ↔ ∀ t ∈ ts, t.isLoaded = true := by
    intro ts
    induction ts with
    | nil => simp [TypeDef.areLoaded]
    | cons t ts ih => simp [TypeDef.areLoaded, ih]
  rw [SymbolTable.isComplete, List.isEmpty_iff, ofModules_skips_eq_nil_iff]
  simp only [← hall, mem_nodesOfModules]
  refine ⟨?_, ?_⟩
  · rintro h s ⟨i, m, hm, hs⟩
    exact (areLoaded_iff m [i] [] 0 _).mp (h m (List.mem_of_getElem? hm)) s hs
  · intro h m hm
    obtain ⟨i, hi⟩ := List.mem_iff_getElem?.mp hm
    exact (areLoaded_iff m [i] [] 0 _).mpr fun s hs => h s ⟨i, m, hi, hs⟩

/-! ### Texts of faults -/

namespace Validator

/-- A rule that goes wrong leaves one text, and otherwise there is none. -/
theorem length_faults_checkRule (ctx : RuleContext) (s : Symbol) (rule : Rule) :
    (checkRule ctx s rule).faults.length = (checkRule ctx s rule).ruleFaults := by
  rw [checkRule]
  by_cases happlies : rule.appliesTo s.kind = true
  · rw [if_pos happlies]
    change (rule.fault? s (rule.check ctx s)).toList.length = (rule.check ctx s).isFault.toNat
    cases rule.check ctx s with
    | clean => rfl
    | found message => rfl
    | failed reason => rfl
    | crashed => rfl
  · rw [if_neg happlies]
    rfl

/-- The same for all rules on all symbols, since texts and numbers are both merged. -/
theorem length_faults_checkTypes (v : Validator) (ctx : RuleContext) :
    (v.checkTypes ctx).faults.length = (v.checkTypes ctx).ruleFaults := by
  have hmerge : ∀ a b : Report,
      (a.merge b).faults.length = a.faults.length + b.faults.length :=
    fun a b => List.length_append
  -- Both are sums over symbols, and then over rules.
  rw [count_checkTypes (f := fun r => r.faults.length) rfl hmerge rfl,
    count_checkTypes (f := Report.ruleFaults) rfl (fun _ _ => rfl) rfl]
  refine congrArg List.sum (List.map_congr_left fun s _ => ?_)
  change (Report.mergeAll (v.activeRules.map (checkRule ctx s))).faults.length
    = (Report.mergeAll (v.activeRules.map (checkRule ctx s))).ruleFaults
  rw [Report.count_mergeAll (f := fun r => r.faults.length) rfl hmerge,
    Report.count_mergeAll (f := Report.ruleFaults) rfl (fun _ _ => rfl), List.map_map, List.map_map]
  exact congrArg List.sum (List.map_congr_left fun rule _ => length_faults_checkRule ctx s rule)

end Validator

theorem SymbolTable.length_skips (t : SymbolTable) :
    t.skips.length = t.skippedTypes + t.skippedMembers := by
  rw [skippedTypes, skippedMembers, List.length_eq_countP_add_countP Skip.isType]
  simp

/-- **Every fault has its text.** The texts of a report are those of the skips, and after them one for
each rule that went wrong on a symbol. -/
theorem Validator.length_faults_validate (v : Validator) (t : SymbolTable) :
    (v.validate t).faults.length
      = (v.validate t).skippedTypes + (v.validate t).skippedMembers + (v.validate t).ruleFaults := by
  change (t.skips.map Skip.message ++ (v.checkTypes (v.context t)).faults).length
    = t.skippedTypes + t.skippedMembers + (v.checkTypes (v.context t)).ruleFaults
  rw [List.length_append, List.length_map, t.length_skips, v.length_faults_checkTypes]

/-! ### Accounts -/

/-- **What it means that a table accounts for all that some modules declare.** -/
structure SymbolTable.AccountsFor (t : SymbolTable) (modules : List Module) : Prop where
  /-- The types are listed by their addresses, -/
  nodes : ∀ a u, typeAt? modules a = some u ↔
    ∃ s ∈ nodesOfModules modules, s.address = a ∧ s.type = u
  /-- each once, -/
  nodup : ((nodesOfModules modules).map Site.address).Nodup
  /-- and the table has the entries of those that have one, in the same order. -/
  types : t.types = (nodesOfModules modules).filterMap (t.entryOf? modules)
  /-- An entry says what the type declares, and has all members that could be loaded. -/
  entries : ∀ s ∈ nodesOfModules modules, ∀ e, t.entryOf? modules s = some e →
    e.module = s.module ∧ e.fullName = pathName s.path ∧ e.info = s.type.info ∧
      e.members.map MemberEntry.member = s.type.members.filter fun m => m.unresolved.isNone
  /-- A type is in the table, or left out, or inside a type that is left out, and it is only one of
  these. -/
  sorts : ∀ s ∈ nodesOfModules modules,
    ((t.entryOf? modules s).isSome = true ∧ s.isSkipped = false ∧ ¬ s.IsInsideSkipped modules) ∨
    ((t.entryOf? modules s).isSome = false ∧ s.isSkipped = true ∧ ¬ s.IsInsideSkipped modules) ∨
    ((t.entryOf? modules s).isSome = false ∧ s.isSkipped = false ∧ s.IsInsideSkipped modules)
  /-- The types that are left out are counted, -/
  skippedTypes : t.skippedTypes = (nodesOfModules modules).countP Site.isSkipped
  /-- and so are the members that could not be loaded, in the types that are in the table. -/
  skippedMembers : t.skippedMembers
    = (((nodesOfModules modules).filter fun s => (t.entryOf? modules s).isSome).flatMap
        fun s => s.type.members).countP fun m => m.unresolved.isSome
  /-- There is one skip for each, -/
  skips : t.skips.length = t.skippedTypes + t.skippedMembers
  /-- and none exactly if no type and no member has a mark, at whatever depth. -/
  complete : t.isComplete = true ↔ ∀ s ∈ nodesOfModules modules,
    s.type.info.unresolved = none ∧ ∀ m ∈ s.type.members, m.unresolved = none
  /-- Every report on the table has a text for each skip and for each rule that goes wrong. -/
  reports : ∀ v : Validator, (v.validate t).skippedTypes = t.skippedTypes ∧
    (v.validate t).skippedMembers = t.skippedMembers ∧
      (v.validate t).faults.length = (v.validate t).skippedTypes + (v.validate t).skippedMembers
        + (v.validate t).ruleFaults

/-- A type is of one of three sorts, by the marks on it and around it. There are two questions, and
without a mark around it the answer to the first one decides. -/
theorem sorts_of_mem_nodes {modules : List Module} {s : Site} (h : s ∈ nodesOfModules modules) :
    (s.isReached = true ∧ s.isSkipped = false ∧ ¬ s.IsInsideSkipped modules) ∨
    (s.isReached = false ∧ s.isSkipped = true ∧ ¬ s.IsInsideSkipped modules) ∨
    (s.isReached = false ∧ s.isSkipped = false ∧ s.IsInsideSkipped modules) := by
  rw [isInsideSkipped_iff h, s.isReached_eq, Site.isSkipped]
  cases s.type.info.unresolved with
  | none => cases s.enclosing.all fun info => info.unresolved.isNone <;> simp
  | some reason => cases s.enclosing.all fun info => info.unresolved.isNone <;> simp

/-- **Nothing is lost silently:** the table of some modules accounts for all that they declare. A type
is in the table, or counted as left out, or inside a type that is counted, and every skip leaves a
text in the report. -/
theorem table_accounts_for_declarations (modules : List Module) :
    (SymbolTable.ofModules modules).AccountsFor modules where
  nodes := fun _ _ => typeAt?_eq_some_iff
  nodup := nodup_nodes modules
  types := (filterMap_entryOf? modules).symm
  entries := by
    intro s hs e he
    have hreached : s.isReached = true := by
      rw [← isSome_entryOf? hs, he]
      rfl
    obtain ⟨i, hi⟩ := List.mem_iff_getElem?.mp (mem_sites_iff.mpr ⟨hs, hreached⟩)
    rw [entryOf?_of_getElem? hi] at he
    obtain rfl := Option.some.inj he
    refine ⟨rfl, rfl, rfl, ?_⟩
    -- Members are numbered where they are entered, and without the numbers they are what was
    -- declared.
    change ((s.loaded.zipIdx _).map _).map _ = s.loaded
    rw [List.map_map]
    exact List.zipIdx_map_fst _ _
  sorts := by
    intro s hs
    rw [isSome_entryOf? hs]
    exact sorts_of_mem_nodes hs
  skippedTypes := skippedTypes_ofModules modules
  skippedMembers := by
    rw [List.filter_congr fun s hs => isSome_entryOf? hs, filter_isReached_nodes]
    exact skippedMembers_ofModules modules
  skips := SymbolTable.length_skips _
  complete := isComplete_iff
  reports := fun v => ⟨rfl, rfl, v.length_faults_validate _⟩

end CilLint
