import CilLint.Symbol.Table
import Mathlib.Data.List.Nodup
import Mathlib.Data.List.Infix

/-!
# The types of some modules, by recursion

The table of some modules read off the trees of their types, with no stack and no state. A `Site` is
a type that could be loaded, together with the types around it and its address: the positions at
which its module, its outermost type and so on inwards are declared. `sitesOfModules` lists the
sites in pre-order and leaves out what could not be loaded, with all that is nested in it.

`Site.entry` is the entry that a site has in the table, said in terms of the sites alone. In
particular the numbers of the types around a site and nested in it are the positions of their
addresses in the list. This makes sense because no two sites have the same address
(`Preordered.nodup`): the address of a site begins with the address of every site around it, and
never with that of a later one (`preordered_sites`).
-/

namespace CilLint

/-- Induction on trees of types, for a list of trees at once: a tree is first in a list, and both
the types nested in it and the rest of the list are smaller. -/
theorem TypeDef.forestInduction {motive : List TypeDef → Prop} (nil : motive [])
    (cons : ∀ info members nested ts, motive nested → motive ts →
      motive (.node info members nested :: ts)) : ∀ ts, motive ts
  | [] => nil
  | .node info members nested :: ts =>
    cons info members nested ts (forestInduction nil cons nested) (forestInduction nil cons ts)

/-! ### Names of paths -/

/-- The full name of the innermost type of a path, which starts at the outermost one. -/
def pathName : List TypeInfo → String
  | [] => ""
  | top :: inner => String.intercalate "+" (top.fullName none :: inner.map TypeInfo.name)

/-- The full name of the innermost type of a path, if there is one. -/
def outerName (path : List TypeInfo) : Option String :=
  if path.isEmpty then none else some (pathName path)

/-- Joining one more text at the end. Names are joined from the outermost type inwards and types are
entered one level at a time, so a path grows at its end. -/
theorem intercalate_concat (separator : String) (first : String) (texts : List String)
    (last : String) :
    String.intercalate separator (first :: (texts ++ [last]))
      = String.intercalate separator (first :: texts) ++ separator ++ last := by
  unfold String.intercalate
  induction texts generalizing first with
  | nil => rfl
  | cons text texts ih => exact ih (first ++ separator ++ text)

/-- The name of a path grows like the full name of a type inside another. So names that are made step
by step, from the outside inwards, are the names of paths. -/
theorem pathName_concat (path : List TypeInfo) (info : TypeInfo) :
    pathName (path ++ [info]) = info.fullName (outerName path) := by
  cases path with
  | nil => rfl
  | cons top inner =>
    rw [List.cons_append, pathName, List.map_append, List.map_singleton, intercalate_concat]
    rfl

/-- What is inside a type has that type's full name around it. -/
@[simp] theorem outerName_concat (path : List TypeInfo) (info : TypeInfo) :
    outerName (path ++ [info]) = some (info.fullName (outerName path)) := by
  rw [outerName, if_neg (by simp), pathName_concat]

/-! ### Sites -/

/-- A type that could be loaded, and where it stands. -/
structure Site where
  module : Module
  /-- The positions at which the module, its outermost type and so on inwards are declared. -/
  address : List Nat
  /-- What the types around it declare, from the outermost inwards. -/
  enclosing : List TypeInfo
  type : TypeDef

mutual

/-- The sites of a type and of those nested in it. -/
def sitesOfType (module : Module) (address : List Nat) (enclosing : List TypeInfo) :
    TypeDef → List Site
  | .node info members nested =>
    match info.unresolved with
    | some _ => []
    | none =>
      ⟨module, address, enclosing, .node info members nested⟩ ::
        sitesOfTypes module address (enclosing ++ [info]) 0 nested

/-- The sites of the types that are declared next to each other from `position` on. -/
def sitesOfTypes (module : Module) (address : List Nat) (enclosing : List TypeInfo)
    (position : Nat) : List TypeDef → List Site
  | [] => []
  | t :: ts =>
    sitesOfType module (address ++ [position]) enclosing t ++
      sitesOfTypes module address enclosing (position + 1) ts

end

mutual

/-- What is left out of a type and of those nested in it. -/
def skipsOfType (outer : Option String) : TypeDef → List Skip
  | .node info members nested =>
    match info.unresolved with
    | some reason => [.type (info.fullName outer) reason]
    | none =>
      memberSkips (info.fullName outer) members ++
        skipsOfTypes (some (info.fullName outer)) nested

/-- What is left out of several types, in the order of their declaration. -/
def skipsOfTypes (outer : Option String) : List TypeDef → List Skip
  | [] => []
  | t :: ts => skipsOfType outer t ++ skipsOfTypes outer ts

end

/-- The sites of modules that stand next to each other from `position` on. -/
def sitesFrom (position : Nat) (modules : List Module) : List Site :=
  (modules.zipIdx position).flatMap fun (m, i) => sitesOfTypes m [i] [] 0 m.manifest.types

/-- **The sites of some modules,** in the order of the table. -/
def sitesOfModules (modules : List Module) : List Site := sitesFrom 0 modules

/-- The positions of the types that could be loaded, counted from `position`. -/
def loadedPositions (position : Nat) (types : List TypeDef) : List Nat :=
  ((types.zipIdx position).filter fun (t, _) => t.info.unresolved.isNone).map Prod.snd

/-- Types that could not be loaded use up a position as well. -/
theorem loadedPositions_cons (position : Nat) (t : TypeDef) (ts : List TypeDef) :
    loadedPositions position (t :: ts)
      = if t.info.unresolved.isNone then position :: loadedPositions (position + 1) ts
        else loadedPositions (position + 1) ts := by
  rw [loadedPositions, List.zipIdx_cons, List.filter_cons]
  dsimp only
  by_cases h : t.info.unresolved.isNone = true
  · rw [if_pos h, if_pos h]
    rfl
  · rw [if_neg h, if_neg h]
    rfl

/-- The position of an address among some sites. -/
def indexOf (sites : List Site) (address : List Nat) : Nat :=
  sites.findIdx fun s => s.address == address

namespace Site

/-- What the types around a site and the type itself declare, from the outermost inwards. -/
def path (s : Site) : List TypeInfo := s.enclosing ++ [s.type.info]

/-- The members that could be loaded. -/
def loaded (s : Site) : List Member := s.type.members.filter fun m => m.unresolved.isNone

/-- Whether the type at a site or some type around it has an ignore marker. -/
def isIgnored (s : Site) : Bool := s.path.any fun info => info.ignore.isSome

/-- **The entry of a site** that is number `i` among all sites. -/
def entry (all : List Site) (i : Nat) (s : Site) : TypeEntry where
  id := i
  module := s.module
  parent := if s.enclosing.isEmpty then none else some (indexOf all s.address.dropLast)
  fullName := pathName s.path
  info := s.type.info
  nested := (loadedPositions 0 s.type.nested).map fun k => indexOf all (s.address ++ [k])
  isIgnored := s.isIgnored
  members := (s.loaded.zipIdx ((all.take i).flatMap loaded).length).map fun (m, id) =>
    ⟨id, i, m, m.key (pathName s.path), s.isIgnored || m.ignore.isSome⟩

end Site

/-- The entries of sites that have these numbers among all sites, from `start` on. -/
def entriesFrom (all : List Site) (start : Nat) (sites : List Site) : List TypeEntry :=
  (sites.zipIdx start).map fun (s, i) => s.entry all i

/-! ### Addresses -/

@[simp] theorem sitesOfTypes_nil (m : Module) (address : List Nat) (enclosing : List TypeInfo)
    (position : Nat) : sitesOfTypes m address enclosing position [] = [] := rfl

theorem sitesOfTypes_cons (m : Module) (address : List Nat) (enclosing : List TypeInfo)
    (position : Nat) (t : TypeDef) (ts : List TypeDef) :
    sitesOfTypes m address enclosing position (t :: ts)
      = sitesOfType m (address ++ [position]) enclosing t ++
        sitesOfTypes m address enclosing (position + 1) ts := rfl

/-- A type that could not be loaded takes all that is nested in it along. Otherwise it comes first,
and what is nested in it has one more type around it. -/
theorem sitesOfType_unresolved (m : Module) (address : List Nat) (enclosing : List TypeInfo)
    {info : TypeInfo} {reason : String} (h : info.unresolved = some reason)
    (members : List Member) (nested : List TypeDef) :
    sitesOfType m address enclosing (.node info members nested) = [] := by
  rw [sitesOfType, h]

theorem sitesOfType_loaded (m : Module) (address : List Nat) (enclosing : List TypeInfo)
    {info : TypeInfo} (h : info.unresolved = none) (members : List Member)
    (nested : List TypeDef) :
    sitesOfType m address enclosing (.node info members nested)
      = ⟨m, address, enclosing, .node info members nested⟩ ::
        sitesOfTypes m address (enclosing ++ [info]) 0 nested := by
  rw [sitesOfType, h]

/-- The address of a site among some types begins with the position of one of them, and this position
is not before the one they start from. -/
theorem exists_prefix_address {m : Module} {address : List Nat} {enclosing : List TypeInfo}
    {position : Nat} {ts : List TypeDef} {s : Site}
    (h : s ∈ sitesOfTypes m address enclosing position ts) :
    ∃ j, position ≤ j ∧ address ++ [j] <+: s.address := by
  induction ts using TypeDef.forestInduction generalizing address enclosing position with
  | nil => simp at h
  | cons info members nested ts ihnested ihts =>
    rw [sitesOfTypes_cons, List.mem_append] at h
    rcases h with h | h
    -- In the first type the position is its own, deeper ones come below it.
    · cases hload : info.unresolved with
      | some reason => simp [sitesOfType_unresolved m _ _ hload] at h
      | none =>
        rw [sitesOfType_loaded m _ _ hload, List.mem_cons] at h
        rcases h with rfl | h
        · exact ⟨position, le_rfl, List.prefix_rfl⟩
        · obtain ⟨j, -, hprefix⟩ := ihnested h
          exact ⟨position, le_rfl, (List.prefix_append _ _).trans hprefix⟩
    · obtain ⟨j, hle, hprefix⟩ := ihts h
      exact ⟨j, Nat.le_of_succ_le hle, hprefix⟩

/-- Sites of one type all have an address that begins with that of the type. -/
theorem prefix_address {m : Module} {address : List Nat} {enclosing : List TypeInfo}
    {t : TypeDef} {s : Site} (h : s ∈ sitesOfType m address enclosing t) :
    address <+: s.address := by
  cases t with
  | node info members nested =>
    cases hload : info.unresolved with
    | some reason => simp [sitesOfType_unresolved m _ _ hload] at h
    | none =>
      rw [sitesOfType_loaded m _ _ hload, List.mem_cons] at h
      -- It is the type itself, or its address goes on from that of the type.
      rcases h with rfl | h
      · exact List.prefix_rfl
      · obtain ⟨j, -, hprefix⟩ := exists_prefix_address h
        exact (List.prefix_append _ _).trans hprefix

/-- An address cannot begin with two positions below one address. -/
theorem eq_of_prefix_concat {a b : List Nat} {j k : Nat} (hj : a ++ [j] <+: b)
    (hk : a ++ [k] <+: b) : j = k := by
  have hprefix := List.prefix_of_prefix_length_le hj hk (by simp)
  have heq := hprefix.eq_of_length (by simp)
  simpa using heq

/-- Sites stand in pre-order if the address of none of them begins with that of a later one. -/
def Preordered (sites : List Site) : Prop :=
  sites.Pairwise fun s s' => ¬ s'.address <+: s.address

/-- The sites of some types stand in pre-order. For a type and what is nested in it this is a matter
of length, for types next to each other a matter of their positions. -/
theorem preordered_sitesOfTypes (m : Module) (address : List Nat) (enclosing : List TypeInfo)
    (position : Nat) (ts : List TypeDef) :
    Preordered (sitesOfTypes m address enclosing position ts) := by
  induction ts using TypeDef.forestInduction generalizing address enclosing position with
  | nil => exact List.Pairwise.nil
  | cons info members nested ts ihnested ihts =>
    have hfirst : Preordered (sitesOfType m (address ++ [position]) enclosing
        (.node info members nested)) := by
      cases hload : info.unresolved with
      | some reason =>
        rw [sitesOfType_unresolved m _ _ hload]
        exact List.Pairwise.nil
      | none =>
        rw [sitesOfType_loaded m _ _ hload]
        refine List.Pairwise.cons ?_ (ihnested _ _ _)
        -- What is nested in a type has a longer address.
        intro s hs hprefix
        obtain ⟨j, -, hlonger⟩ := exists_prefix_address hs
        have hle := (hlonger.trans hprefix).length_le
        simp at hle
    rw [sitesOfTypes_cons]
    -- Between a type and a later sibling the addresses part at the position of the two.
    refine List.pairwise_append.mpr ⟨hfirst, ihts _ _ _, ?_⟩
    intro s hs s' hs' hprefix
    obtain ⟨j, hle, hbegin⟩ := exists_prefix_address hs'
    have hj := eq_of_prefix_concat (hbegin.trans hprefix) (prefix_address hs)
    omega

/-- The sites of some modules stand in pre-order, one module after another. -/
theorem preordered_sitesFrom (position : Nat) (modules : List Module) :
    Preordered (sitesFrom position modules) := by
  induction modules generalizing position with
  | nil => exact List.Pairwise.nil
  | cons m modules ih =>
    rw [sitesFrom, List.zipIdx_cons, List.flatMap_cons]
    refine List.pairwise_append.mpr ⟨preordered_sitesOfTypes m _ _ _ _, ih (position + 1), ?_⟩
    -- Between two modules they part at the first number.
    intro s hs s' hs' hprefix
    obtain ⟨⟨m', i⟩, hmem, hs'⟩ := List.mem_flatMap.mp hs'
    obtain ⟨j, -, hbegin⟩ := exists_prefix_address hs
    obtain ⟨j', -, hbegin'⟩ := exists_prefix_address hs'
    have hi := List.le_snd_of_mem_zipIdx hmem
    have hmodule := eq_of_prefix_concat (a := []) ((List.prefix_append [position] [j]).trans hbegin)
      (((List.prefix_append [i] [j']).trans hbegin').trans hprefix)
    dsimp only at hi
    omega

/-- **Sites stand in pre-order.** Types come before what is nested in them, and this before the types
next to them. -/
theorem preordered_sites (modules : List Module) : Preordered (sitesOfModules modules) :=
  preordered_sitesFrom 0 modules

/-- No two sites in pre-order have the same address. -/
theorem Preordered.nodup {sites : List Site} (h : Preordered sites) :
    (sites.map Site.address).Nodup := by
  refine List.pairwise_map.mpr (h.imp ?_)
  intro s s' hprefix heq
  exact hprefix (heq ▸ List.prefix_rfl)

/-- A site is found at its own position by its address. This is why the numbers of types can be said
in terms of addresses. -/
theorem indexOf_eq {sites : List Site} {s : Site} {i : Nat}
    (hnodup : (sites.map Site.address).Nodup) (h : sites[i]? = some s) :
    indexOf sites s.address = i := by
  obtain ⟨hi, rfl⟩ := List.getElem?_eq_some_iff.mp h
  -- An earlier site with the same address would be the same one.
  refine (List.findIdx_eq hi).mpr ⟨beq_self_eq_true _, ?_⟩
  intro j hj
  rw [beq_eq_false_iff_ne]
  intro heq
  have hsame : (sites.map Site.address)[j]? = (sites.map Site.address)[i]? := by
    simp [List.getElem?_eq_getElem hi, List.getElem?_eq_getElem (hj.trans hi), heq]
  have hindex := (List.getElem?_inj (by simpa using hj.trans hi) hnodup).mp hsame
  omega

theorem getElem?_indexOf {sites : List Site} {s : Site} (hnodup : (sites.map Site.address).Nodup)
    (h : s ∈ sites) : sites[indexOf sites s.address]? = some s := by
  obtain ⟨i, hi⟩ := List.mem_iff_getElem?.mp h
  rw [indexOf_eq hnodup hi, hi]

/-! ### Types around others -/

/-- A site is that of a type declared directly inside the type of another one. -/
structure Site.Encloses (outer inner : Site) : Prop where
  module : inner.module = outer.module
  enclosing : inner.enclosing = outer.path
  declared : ∃ k, inner.address = outer.address ++ [k] ∧ outer.type.nested[k]? = some inner.type

/-- A site is that of one of the types that are declared next to each other from `position` on. -/
structure Site.DeclaredAmong (m : Module) (address : List Nat) (enclosing : List TypeInfo)
    (position : Nat) (ts : List TypeDef) (s : Site) : Prop where
  module : s.module = m
  enclosing : s.enclosing = enclosing
  declared : ∃ k, s.address = address ++ [position + k] ∧ ts[k]? = some s.type

/-- What is declared directly inside a type is declared among its nested types. -/
theorem Site.encloses_iff_declaredAmong (outer s : Site) :
    outer.Encloses s ↔ s.DeclaredAmong outer.module outer.address outer.path 0 outer.type.nested := by
  refine ⟨?_, ?_⟩
  · rintro ⟨hmodule, henclosing, k, haddress, htype⟩
    exact ⟨hmodule, henclosing, k, by rw [haddress, Nat.zero_add], htype⟩
  · rintro ⟨hmodule, henclosing, k, haddress, htype⟩
    exact ⟨hmodule, henclosing, k, by rw [haddress, Nat.zero_add], htype⟩

theorem Site.declaredAmong_nil (m : Module) (address : List Nat) (enclosing : List TypeInfo)
    (position : Nat) (s : Site) : ¬ s.DeclaredAmong m address enclosing position [] := by
  rintro ⟨-, -, k, -, htype⟩
  simp at htype

/-- What is declared among some types is the first of them or declared among the others, which stand
one position further on. -/
theorem Site.declaredAmong_cons (m : Module) (address : List Nat) (enclosing : List TypeInfo)
    (position : Nat) (t : TypeDef) (ts : List TypeDef) (s : Site) :
    s.DeclaredAmong m address enclosing position (t :: ts) ↔
      s = ⟨m, address ++ [position], enclosing, t⟩ ∨
        s.DeclaredAmong m address enclosing (position + 1) ts := by
  refine ⟨?_, ?_⟩
  · rintro ⟨rfl, rfl, k, haddress, htype⟩
    -- The position is the first one, or it is counted from the next one on.
    cases k with
    | zero =>
      left
      obtain rfl := Option.some.inj htype
      rw [Nat.add_zero] at haddress
      rw [← haddress]
    | succ k =>
      right
      exact ⟨rfl, rfl, k, by rw [haddress, Nat.add_assoc, Nat.add_comm 1 k], htype⟩
  · rintro (rfl | ⟨rfl, rfl, k, haddress, htype⟩)
    · exact ⟨rfl, rfl, 0, rfl, rfl⟩
    · exact ⟨rfl, rfl, k + 1, by rw [haddress, Nat.add_assoc, Nat.add_comm 1 k], htype⟩

/-- **Where sites come from.** A site is that of a type that could be loaded and is declared among
the given ones or directly inside the type of another site, and each such type has a site. -/
theorem mem_sitesOfTypes_iff {m : Module} {address : List Nat} {enclosing : List TypeInfo}
    {position : Nat} {ts : List TypeDef} {s : Site} :
    s ∈ sitesOfTypes m address enclosing position ts ↔
      s.type.info.unresolved = none ∧
        (s.DeclaredAmong m address enclosing position ts ∨
          ∃ outer ∈ sitesOfTypes m address enclosing position ts, outer.Encloses s) := by
  induction ts using TypeDef.forestInduction generalizing address enclosing position with
  | nil => simp [Site.declaredAmong_nil]
  | cons info members nested ts ihnested ihts =>
    -- The statement for the first type alone. What is directly inside it is declared among `nested`,
    -- so the hypothesis for `nested` covers both.
    have hfirst : s ∈ sitesOfType m (address ++ [position]) enclosing (.node info members nested) ↔
        s.type.info.unresolved = none ∧
          (s = ⟨m, address ++ [position], enclosing, .node info members nested⟩ ∨
            ∃ outer ∈ sitesOfType m (address ++ [position]) enclosing (.node info members nested),
              outer.Encloses s) := by
      cases hload : info.unresolved with
      | some reason =>
        rw [sitesOfType_unresolved m _ _ hload]
        refine ⟨?_, ?_⟩
        · simp
        · rintro ⟨hs, rfl | ⟨outer, houter, -⟩⟩
          · simp [hload] at hs
          · exact absurd houter List.not_mem_nil
      | none =>
        rw [sitesOfType_loaded m _ _ hload, List.mem_cons, ihnested]
        simp only [List.exists_mem_cons_iff, Site.encloses_iff_declaredAmong]
        refine ⟨?_, ?_⟩
        · rintro (rfl | ⟨hs, h⟩)
          · exact ⟨hload, .inl rfl⟩
          · exact ⟨hs, .inr h⟩
        · rintro ⟨hs, h | h⟩
          · exact .inl h
          · exact .inr ⟨hs, h⟩
    -- Now the first type and the others are put together.
    rw [sitesOfTypes_cons, List.mem_append, hfirst, ihts, Site.declaredAmong_cons]
    simp only [List.mem_append, or_and_right, exists_or]
    rw [← and_or_left, or_or_or_comm]

/-- A site is among the outermost types of a module, or nested in one of them. -/
theorem mem_sitesOfModules {modules : List Module} {s : Site} :
    s ∈ sitesOfModules modules ↔
      ∃ i m, modules[i]? = some m ∧ s ∈ sitesOfTypes m [i] [] 0 m.manifest.types := by
  rw [sitesOfModules, sitesFrom, List.mem_flatMap]
  refine ⟨?_, ?_⟩
  · rintro ⟨⟨m, i⟩, hmem, hs⟩
    exact ⟨i, m, List.mem_zipIdx_iff_getElem?.mp hmem, hs⟩
  · rintro ⟨i, m, hmem, hs⟩
    exact ⟨⟨m, i⟩, List.mem_zipIdx_iff_getElem?.mpr hmem, hs⟩

/-- A site stands for an outermost type or lies directly inside another site. In the second case the
type around it could be loaded as well. -/
theorem isOutermost_or_enclosed {modules : List Module} {s : Site}
    (h : s ∈ sitesOfModules modules) :
    s.enclosing = [] ∨ ∃ outer ∈ sitesOfModules modules, outer.Encloses s := by
  obtain ⟨i, m, hm, hs⟩ := mem_sitesOfModules.mp h
  obtain ⟨-, hdeclared | ⟨outer, houter, hencloses⟩⟩ := mem_sitesOfTypes_iff.mp hs
  · exact .inl hdeclared.enclosing
  · exact .inr ⟨outer, mem_sitesOfModules.mpr ⟨i, m, hm, houter⟩, hencloses⟩

/-- What could be loaded and is declared directly inside a site has a site. With
`isOutermost_or_enclosed` this says which nested types are in the table. -/
theorem Site.Encloses.mem {modules : List Module} {outer s : Site} (h : outer.Encloses s)
    (houter : outer ∈ sitesOfModules modules) (hload : s.type.info.unresolved = none) :
    s ∈ sitesOfModules modules := by
  obtain ⟨i, m, hm, hmem⟩ := mem_sitesOfModules.mp houter
  exact mem_sitesOfModules.mpr
    ⟨i, m, hm, mem_sitesOfTypes_iff.mpr ⟨hload, .inr ⟨outer, hmem, h⟩⟩⟩

theorem loaded_of_mem {modules : List Module} {s : Site} (h : s ∈ sitesOfModules modules) :
    s.type.info.unresolved = none := by
  obtain ⟨i, m, -, hs⟩ := mem_sitesOfModules.mp h
  exact (mem_sitesOfTypes_iff.mp hs).1

end CilLint
