import CilLint.Proofs.Outline

/-!
# Where symbols are declared

A `Place` says where a type or a member stands in some modules: by the position of the module, the
positions of the types around it from the outermost inwards, and for a member its position in its
type. `declaredAt?` follows these positions down the trees. Handles say where a symbol stands in
the table, so they change with everything that comes before it, and they leave out what could not be
loaded.

The two are connected by listing the places of all symbols in the order of the table
(`placesOfModules`). At the place of each symbol there is the declaration that the symbol comes from
(`map_declaredAt?_places`), and `placeOf?` gives the place of a handle.
-/

namespace CilLint

/-- Where a type or member is declared. -/
structure Place where
  /-- The positions of the module, its outermost type and so on inwards. -/
  address : List Nat
  /-- The position of a member in its type. -/
  member : Option Nat := none
  deriving DecidableEq, Repr

namespace Place

/-- Whether `q` is the place `p` or, if a type is declared at `p`, lies anywhere inside it. -/
def covers (p q : Place) : Bool :=
  match p.member with
  | none => p.address.isPrefixOf q.address
  | some _ => decide (p = q)

/-- A type covers a type one level down if it covers the one around it, or is the type itself. With
`covers_member` this says all about what a place covers, from the outside inwards. -/
theorem covers_concat (p : Place) (address : List Nat) (k : Nat) :
    p.covers ⟨address ++ [k], none⟩
      = (p.covers ⟨address, none⟩ || decide (p = ⟨address ++ [k], none⟩)) := by
  obtain ⟨prefixed, member⟩ := p
  unfold covers
  -- A member covers no type at all.
  cases member with
  | some j => simp
  | none =>
    simp only [Place.mk.injEq, and_true]
    rw [Bool.eq_iff_iff, Bool.or_eq_true, List.isPrefixOf_iff_prefix, List.isPrefixOf_iff_prefix,
      decide_eq_true_eq, List.prefix_concat_iff, or_comm]

/-- A type covers its members, and a member covers itself. -/
theorem covers_member (p : Place) (address : List Nat) (k : Nat) :
    p.covers ⟨address, some k⟩
      = (p.covers ⟨address, none⟩ || decide (p = ⟨address, some k⟩)) := by
  obtain ⟨prefixed, member⟩ := p
  unfold covers
  cases member with
  | some j => simp
  | none => simp

/-- Types do not cover the module that they are in. The address of a type has more than the position
of the module. -/
theorem covers_module {p : Place} (h : 2 ≤ p.address.length) (i : Nat) :
    p.covers ⟨[i], none⟩ = false := by
  obtain ⟨address, member⟩ := p
  unfold covers
  cases member with
  | some j => simp
  | none =>
    rw [← Bool.not_eq_true, List.isPrefixOf_iff_prefix]
    intro hprefix
    have hle := hprefix.length_le
    simp only [List.length_singleton] at hle h
    omega

end Place

/-! ### Declarations -/

/-- What is declared at a place. -/
inductive Declared where
  | type (info : TypeInfo)
  | member (m : Member)

/-- The types nested in a type, by their positions. -/
def TypeDef.inner? : List Nat → TypeDef → Option TypeDef
  | [], t => some t
  | k :: ks, t => t.nested[k]?.bind (inner? ks)

/-- The type at an address. -/
def typeAt? (modules : List Module) : List Nat → Option TypeDef
  | i :: k :: ks => modules[i]?.bind fun m => m.manifest.types[k]?.bind (TypeDef.inner? ks)
  | _ => none

/-- What a type declares at a position, or the type itself. -/
def TypeDef.declared? (t : TypeDef) : Option Nat → Option Declared
  | none => some (.type t.info)
  | some k => t.members[k]?.map .member

/-- **What is declared at a place.** -/
def declaredAt? (modules : List Module) (p : Place) : Option Declared :=
  (typeAt? modules p.address).bind fun t => t.declared? p.member

/-- Something can be declared only inside an outermost type of a module. -/
theorem two_le_length_address {modules : List Module} {p : Place} {d : Declared}
    (h : declaredAt? modules p = some d) : 2 ≤ p.address.length := by
  obtain ⟨address, member⟩ := p
  rcases address with _ | ⟨i, _ | ⟨k, ks⟩⟩
  · cases h
  · cases h
  · exact Nat.le_add_left 2 ks.length

/-- A site has its type at its address. In the induction the trees stand at some address already, and
an address in them goes on from there. -/
theorem exists_inner?_of_mem_sitesOfTypes {m : Module} {address : List Nat}
    {enclosing : List TypeInfo} {position : Nat} {ts : List TypeDef} {s : Site}
    (h : s ∈ sitesOfTypes m address enclosing position ts) :
    ∃ k ks, s.address = address ++ (position + k) :: ks ∧
      ts[k]?.bind (TypeDef.inner? ks) = some s.type := by
  induction ts using TypeDef.forestInduction generalizing address enclosing position with
  | nil => simp at h
  | cons info members nested ts ihnested ihts =>
    rw [sitesOfTypes_cons, List.mem_append] at h
    rcases h with h | h
    -- The site is in the first tree or in a later one.
    · cases hload : info.unresolved with
      | some reason => simp [sitesOfType_unresolved m _ _ hload] at h
      | none =>
        rw [sitesOfType_loaded m _ _ hload, List.mem_cons] at h
        rcases h with rfl | h
        · exact ⟨0, [], rfl, rfl⟩
        · -- A site below the first type has the position of that type first.
          obtain ⟨k, ks, haddress, htype⟩ := ihnested h
          refine ⟨0, k :: ks, ?_, htype⟩
          rw [haddress, Nat.zero_add, List.append_assoc]
          rfl
    · obtain ⟨k, ks, haddress, htype⟩ := ihts h
      exact ⟨k + 1, ks, by rw [haddress, Nat.add_right_comm, Nat.add_assoc], htype⟩

/-- So following the address of a site leads to its type. -/
theorem typeAt?_of_mem_sites {modules : List Module} {s : Site} (h : s ∈ sitesOfModules modules) :
    typeAt? modules s.address = some s.type := by
  obtain ⟨i, m, hm, hs⟩ := mem_sitesOfModules.mp h
  obtain ⟨k, ks, haddress, htype⟩ := exists_inner?_of_mem_sitesOfTypes hs
  rw [haddress, Nat.zero_add]
  change modules[i]?.bind _ = _
  rw [hm]
  exact htype

/-! ### Places of symbols -/

/-- The declaration that a symbol comes from. -/
def Symbol.declared (s : Symbol) : Declared :=
  match s.entry with
  | none => .type s.declaringType.info
  | some e => .member e.member

/-- The members that could be loaded, with their positions among all members of the type. -/
def Site.positioned (s : Site) : List (Member × Nat) :=
  s.type.members.zipIdx.filter fun x => x.1.unresolved.isNone

theorem Site.map_fst_positioned (s : Site) : s.positioned.map Prod.fst = s.loaded := by
  have hfilter : (s.type.members.zipIdx.map Prod.fst).filter (fun m => m.unresolved.isNone)
      = s.positioned.map Prod.fst := List.filter_map
  rw [← hfilter, List.zipIdx_map_fst]
  rfl

/-- The places of a type that could be loaded and of its members that could. -/
def Site.places (s : Site) : List Place :=
  ⟨s.address, none⟩ :: s.positioned.map fun x => ⟨s.address, some x.2⟩

/-- The places of all symbols, in the order of the table. -/
def placesOfModules (modules : List Module) : List Place := (sitesOfModules modules).flatMap Site.places

/-- **The place of the symbol with a given handle.** -/
def placeOf? (modules : List Module) (h : Handle) : Option Place :=
  (((SymbolTable.ofModules modules).symbols.map Symbol.handle).zip (placesOfModules modules)).lookup h

/-- **At the place of each symbol is its declaration.** Both lists are those of the sites, type by
type, and a type that could be loaded comes before its members. -/
theorem map_declaredAt?_places (modules : List Module) :
    (placesOfModules modules).map (declaredAt? modules)
      = (SymbolTable.ofModules modules).symbols.map fun s => some s.declared := by
  -- At the places of a site stand the type and its members,
  have hsite : ∀ s ∈ sitesOfModules modules, s.places.map (declaredAt? modules)
      = some (.type s.type.info) :: s.loaded.map fun m => some (.member m) := by
    intro s hs
    have htype := typeAt?_of_mem_sites hs
    have hmember : ∀ x ∈ s.positioned,
        declaredAt? modules ⟨s.address, some x.2⟩ = some (.member x.1) := by
      intro x hx
      have hx := List.mem_zipIdx_iff_getElem?.mp (List.mem_filter.mp hx).1
      rw [declaredAt?, htype, Option.bind_some, TypeDef.declared?, hx]
      rfl
    unfold Site.places
    rw [List.map_cons, List.map_map, declaredAt?, htype, ← s.map_fst_positioned, List.map_map]
    congr 1
    exact List.map_congr_left hmember
  -- and these are what the symbols of its entry come from.
  have hentries : ∀ (all : List Site) (start : Nat) (sites : List Site),
      ((entriesFrom all start sites).flatMap TypeEntry.symbols).map (fun s => some s.declared)
        = sites.flatMap fun s => some (.type s.type.info) :: s.loaded.map fun m => some (.member m) := by
    intro all start sites
    induction sites generalizing start with
    | nil => rfl
    | cons s sites ih =>
      have hmembers : (s.entry all start).members.map (fun e => some (Declared.member e.member))
          = s.loaded.map fun m => some (.member m) := by
        change ((s.loaded.zipIdx _).map _).map _ = _
        rw [List.map_map]
        change (s.loaded.zipIdx _).map ((fun m => some (Declared.member m)) ∘ Prod.fst) = _
        rw [← List.map_map, List.zipIdx_map_fst]
      rw [entriesFrom_cons, List.flatMap_cons, List.map_append, ih, List.flatMap_cons, ← hmembers,
        TypeEntry.symbols, List.map_cons, List.map_map]
      rfl
  rw [placesOfModules, List.map_flatMap, SymbolTable.symbols, ofModules_types, hentries]
  exact List.flatMap_congr hsite

/-- Looking elements up by their keys in a list of partners is going through both lists at once, if no
two elements have the same key. This is how results about lists in step become results about
look-ups. -/
theorem map_lookup_zip {α β γ κ : Type} [DecidableEq κ] {key : α → κ} (f : α → Option β → γ)
    {l : List α} {partners : List β} (hlength : l.length = partners.length)
    (hnodup : (l.map key).Nodup) :
    (l.map fun a => f a (((l.map key).zip partners).lookup (key a)))
      = List.zipWith (fun a b => f a (some b)) l partners := by
  induction l generalizing partners with
  | nil => rfl
  | cons a l ih =>
    cases partners with
    | nil => simp at hlength
    | cons b partners =>
      obtain ⟨hfresh, hnodup⟩ := List.nodup_cons.mp hnodup
      rw [List.map_cons, List.map_cons, List.zip_cons_cons, List.zipWith_cons_cons,
        List.lookup_cons_self, ← ih (by simpa using hlength) hnodup]
      congr 1
      -- The search passes over the first pair, since later elements have other keys.
      refine List.map_congr_left fun a' ha' => ?_
      have hne : key a' ≠ key a := fun heq => hfresh (heq ▸ List.mem_map_of_mem ha')
      rw [List.lookup_cons, beq_false_of_ne hne]

theorem length_places (modules : List Module) :
    (SymbolTable.ofModules modules).symbols.length = (placesOfModules modules).length := by
  have hlength := congrArg List.length (map_declaredAt?_places modules)
  rw [List.length_map, List.length_map] at hlength
  exact hlength.symm

/-! ### Handles -/

/-- The handles of the symbols of a table whose types have these numbers of members. -/
def handlesOf (counts : List Nat) : List Handle :=
  counts.zipIdx.flatMap fun x =>
    ⟨x.2, none⟩ :: (List.range' (counts.take x.2).sum x.1).map fun id => ⟨x.2, some id⟩

/-- **Handles say nothing but how many members each type has.** Types are numbered, and members are
numbered through all types. So two tables have the same handles if their types have as many members,
one by one. -/
theorem map_handle_symbols (modules : List Module) :
    (SymbolTable.ofModules modules).symbols.map Symbol.handle
      = handlesOf ((sitesOfModules modules).map fun s => s.loaded.length) := by
  -- The members of a type are numbered from how many there are in the types before it.
  have hentry : ∀ (all : List Site) (i : Nat) (s : Site), (s.entry all i).symbols.map Symbol.handle
      = ⟨i, none⟩ :: (List.range' ((all.map fun s => s.loaded.length).take i).sum s.loaded.length).map
          fun id => ⟨i, some id⟩ := by
    intro all i s
    have hcount : ((all.take i).flatMap Site.loaded).length
        = ((all.map fun s => s.loaded.length).take i).sum := by
      rw [List.length_flatMap, List.map_take]
    rw [TypeEntry.symbols, List.map_cons, List.map_map, ← hcount, ← List.zipIdx_map_snd, List.map_map]
    change _ :: ((s.loaded.zipIdx _).map _).map _ = _
    rw [List.map_map]
    rfl
  unfold handlesOf
  rw [SymbolTable.symbols, ofModules_types, entriesFrom, List.map_flatMap, List.flatMap_map,
    List.zipIdx_map, List.flatMap_map]
  exact List.flatMap_congr fun x _ => hentry _ x.2 x.1

end CilLint
