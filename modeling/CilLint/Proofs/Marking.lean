import CilLint.Proofs.Place
import Mathlib.Algebra.BigOperators.Group.List.Basic

/-!
# Ignore markers are local

`markModules` puts an ignore marker on one type or member of some modules, at any depth. A pass of
built-in rules over the result differs from the one before in nothing but what was asked for.

* **The trees** are changed at one place (`declaredAt?_markModules`). Tokens stand for the same
  members as before (`Module.mark_ofManifest`).
* **The table** has the same outlines in the same order. A symbol is ignored if it was ignored before
  or lies at the marked place or inside it (`map_view_markModules`). What could not be loaded is the
  same as before (`skips_markModules`).
* **The index** is the same: ignored symbols have the bodies that they had before
  (`ofTable_markModules`).

The enclosing types hand the marker down, so the induction over trees carries whether what encloses
them is covered by the marked place (`map_views_markAll`).
-/

namespace CilLint

/-- What a change of elements does not affect stays the same for the whole list. -/
theorem map_mapIdx_of_eq {α β : Type} {g : Nat → α → α} {f : α → β} (h : ∀ i a, f (g i a) = f a)
    (l : List α) : (l.mapIdx g).map f = l.map f := by
  rw [List.mapIdx_eq_zipIdx_map, List.map_map]
  calc _ = l.zipIdx.map (f ∘ Prod.fst) := List.map_congr_left fun x _ => h x.2 x.1
    _ = _ := by rw [← List.map_map, List.zipIdx_map_fst]

section Marks

variable (p : Place) (marker : IgnoreMarker)

/-! ### Putting a marker on something -/

/-- What a type at an address declares, with the marker if it is at the marked place. -/
def TypeInfo.mark (address : List Nat) (info : TypeInfo) : TypeInfo :=
  if p = ⟨address, none⟩ then { info with ignore := some marker } else info

/-- Member number `k` of the type at an address, with the marker if it is at the marked place. -/
def Member.mark (address : List Nat) (k : Nat) (m : Member) : Member :=
  if p = ⟨address, some k⟩ then { m with ignore := some marker } else m

mutual

/-- The type at an address, with the marker wherever the marked place is. -/
def TypeDef.mark (address : List Nat) : TypeDef → TypeDef
  | .node info members nested =>
    .node (info.mark p marker address) (members.mapIdx (Member.mark p marker address))
      (TypeDef.markAll address 0 nested)

/-- The types declared next to each other from `position` on, with the marker. -/
def TypeDef.markAll (address : List Nat) (position : Nat) : List TypeDef → List TypeDef
  | [] => []
  | t :: ts => t.mark (address ++ [position]) :: TypeDef.markAll address (position + 1) ts

end

/-- Module number `i`, with the marker. -/
def Module.mark (i : Nat) (m : Module) : Module :=
  { m with manifest := { m.manifest with types := TypeDef.markAll p marker [i] 0 m.manifest.types } }

/-- **Some modules, with an ignore marker at a place.** -/
def markModules (modules : List Module) : List Module := modules.mapIdx (Module.mark p marker)

/-- A declaration with an ignore marker. -/
def Declared.mark : Declared → Declared
  | .type info => .type { info with ignore := some marker }
  | .member m => .member { m with ignore := some marker }

/-! ### What a marker changes -/

variable {p marker}

/-- A marker is no part of the outline of a type. This and the next lemmas say what else it leaves
alone: what could not be loaded, and names. -/
theorem TypeInfo.outline_mark (address : List Nat) (info : TypeInfo) :
    (info.mark p marker address).outline = info.outline := by
  unfold mark
  split_ifs <;> rfl

theorem TypeInfo.unresolved_mark (address : List Nat) (info : TypeInfo) :
    (info.mark p marker address).unresolved = info.unresolved := by
  unfold mark
  split_ifs <;> rfl

theorem TypeInfo.fullName_mark (address : List Nat) (info : TypeInfo) :
    (info.mark p marker address).fullName = info.fullName := by
  unfold mark
  split_ifs <;> rfl

/-- What it changes: the type at the marked place has a marker now. -/
theorem TypeInfo.ignore_mark (address : List Nat) (info : TypeInfo) :
    (info.mark p marker address).ignore.isSome
      = (info.ignore.isSome || decide (p = ⟨address, none⟩)) := by
  unfold mark
  split_ifs with h <;> simp [h]

/-- The same four facts for members. Their outline has all that rules look at. -/
theorem Member.outline_mark (address : List Nat) (k : Nat) (m : Member) :
    (m.mark p marker address k).outline = m.outline := by
  unfold mark
  split_ifs <;> rfl

theorem Member.unresolved_mark (address : List Nat) (k : Nat) (m : Member) :
    (m.mark p marker address k).unresolved = m.unresolved := by
  unfold mark
  split_ifs <;> rfl

/-- Keys are made of names, so references to a member still lead to it. -/
theorem Member.key_mark (address : List Nat) (k : Nat) (m : Member) (typeName : String) :
    (m.mark p marker address k).key typeName = m.key typeName := by
  unfold mark
  split_ifs <;> rfl

/-- The member at the marked place has a marker now. -/
theorem Member.ignore_mark (address : List Nat) (k : Nat) (m : Member) :
    (m.mark p marker address k).ignore.isSome
      = (m.ignore.isSome || decide (p = ⟨address, some k⟩)) := by
  unfold mark
  split_ifs with h <;> simp [h]

/-- What can be told from the outlines of members does not change. It is used for tokens with keys,
and for skips, which are both lists that are made member by member. -/
theorem map_mapIdx_mark {β : Type} {f : Member → β} (hf : ∀ m : Member, f m.outline = f m)
    (address : List Nat) (members : List Member) :
    (members.mapIdx (Member.mark p marker address)).map f = members.map f := by
  refine map_mapIdx_of_eq (fun k m => ?_) members
  rw [← hf, Member.outline_mark, hf]

/-- How marking goes down a tree: the type itself, then its members by their numbers, then what is
nested in it with longer addresses. -/
theorem TypeDef.info_mark (address : List Nat) (t : TypeDef) :
    (t.mark p marker address).info = t.info.mark p marker address := by
  cases t
  rw [TypeDef.mark]
  rfl

theorem TypeDef.members_mark (address : List Nat) (t : TypeDef) :
    (t.mark p marker address).members = t.members.mapIdx (Member.mark p marker address) := by
  cases t
  rw [TypeDef.mark]
  rfl

theorem TypeDef.nested_mark (address : List Nat) (t : TypeDef) :
    (t.mark p marker address).nested = TypeDef.markAll p marker address 0 t.nested := by
  cases t
  rw [TypeDef.mark]
  rfl

/-- The type at a position is marked with the address it has there. -/
theorem TypeDef.getElem?_markAll (address : List Nat) (position k : Nat) (ts : List TypeDef) :
    (TypeDef.markAll p marker address position ts)[k]?
      = ts[k]?.map (TypeDef.mark p marker (address ++ [position + k])) := by
  induction ts generalizing position k with
  | nil => rw [TypeDef.markAll]; rfl
  | cons t ts ih =>
    rw [TypeDef.markAll]
    cases k with
    | zero => rfl
    | succ k =>
      rw [List.getElem?_cons_succ, List.getElem?_cons_succ, ih, Nat.add_right_comm, Nat.add_assoc]

/-- Going down a marked tree leads to what is there in the tree, marked. -/
theorem TypeDef.inner?_mark (address ks : List Nat) (t : TypeDef) :
    TypeDef.inner? ks (t.mark p marker address)
      = (TypeDef.inner? ks t).map (TypeDef.mark p marker (address ++ ks)) := by
  induction ks generalizing address t with
  | nil =>
    rw [List.append_nil]
    rfl
  -- One step down is to nested type number `k`, whose address is longer by `k`.
  | cons k ks ih =>
    rw [TypeDef.inner?, TypeDef.inner?, TypeDef.nested_mark, TypeDef.getElem?_markAll, Nat.zero_add]
    cases t.nested[k]? with
    | none => rfl
    | some u =>
      have hu := ih (address ++ [k]) u
      rw [List.append_assoc] at hu
      exact hu

/-- The type at an address of marked modules is the one that was there, marked with its address. The
first number of an address is that of a module, the second one that of an outermost type. -/
theorem typeAt?_markModules (modules : List Module) (address : List Nat) :
    typeAt? (markModules p marker modules) address
      = (typeAt? modules address).map (TypeDef.mark p marker address) := by
  rcases address with _ | ⟨i, _ | ⟨k, ks⟩⟩
  · rfl
  · rfl
  -- Shorter addresses have no type. Here there is a module, then an outermost type, and then a way
  -- down.
  · change (markModules p marker modules)[i]?.bind _ = (modules[i]?.bind _).map _
    rw [markModules, List.getElem?_mapIdx]
    cases modules[i]? with
    | none => rfl
    | some m =>
      change (TypeDef.markAll p marker [i] 0 m.manifest.types)[k]?.bind _ = (m.manifest.types[k]?.bind _).map _
      rw [TypeDef.getElem?_markAll, Nat.zero_add]
      cases m.manifest.types[k]? with
      | none => rfl
      | some t => exact TypeDef.inner?_mark [i, k] ks t

/-- **The marker is put at one place.** What is declared anywhere else stays, also next to the place
and inside it. -/
theorem declaredAt?_markModules (modules : List Module) (q : Place) :
    declaredAt? (markModules p marker modules) q
      = (declaredAt? modules q).map fun d => if p = q then d.mark marker else d := by
  obtain ⟨address, member⟩ := q
  unfold declaredAt?
  rw [typeAt?_markModules]
  cases typeAt? modules address with
  | none => rfl
  | some t =>
    rw [Option.map_some, Option.bind_some, Option.bind_some]
    -- The marker can be on the type at the address, or on one of its members.
    cases member with
    | none =>
      rw [TypeDef.declared?, TypeDef.declared?, TypeDef.info_mark, TypeInfo.mark, Option.map_some]
      by_cases h : p = ⟨address, none⟩
      · rw [if_pos h, if_pos h]
        rfl
      · rw [if_neg h, if_neg h]
    | some k =>
      rw [TypeDef.declared?, TypeDef.declared?, TypeDef.members_mark, List.getElem?_mapIdx]
      cases t.members[k]? with
      | none => rfl
      | some m =>
        rw [Option.map_some, Option.map_some, Option.map_some, Option.map_some, Member.mark]
        by_cases h : p = ⟨address, some k⟩
        · rw [if_pos h, if_pos h]
          rfl
        · rw [if_neg h, if_neg h]

/-! ### Tokens -/

/-- Entering marked types into a map of tokens enters the same tokens and keys, in the same order. -/
theorem enterTypes_markAll (outer : Option String) (address : List Nat) (position : Nat)
    (ts : List TypeDef) (map : TokenMap) :
    TokenMap.enterTypes outer (TypeDef.markAll p marker address position ts) map
      = TokenMap.enterTypes outer ts map := by
  have hmembers : ∀ (typeName : String) (address : List Nat) (members : List Member) (map : TokenMap),
      TokenMap.enterMembers typeName (members.mapIdx (Member.mark p marker address)) map
        = TokenMap.enterMembers typeName members map := by
    intro typeName address members map
    -- A member is entered by its token and its key.
    let step (map : TokenMap) (x : Token × MemberKey) := if x.1.isNil then map else map.insert x.1 x.2
    have hstep : ∀ members : List Member, TokenMap.enterMembers typeName members map
        = (members.map fun m => (m.token, m.key typeName)).foldl step map := by
      intro members
      rw [List.foldl_map]
      rfl
    rw [hstep, hstep, map_mapIdx_mark fun _ => rfl]
  induction ts using TypeDef.forestInduction generalizing outer address position map with
  | nil =>
    rw [TypeDef.markAll]
  | cons info members nested ts ihnested ihts =>
    rw [TypeDef.markAll, TypeDef.mark, TokenMap.enterTypes, TokenMap.enterTypes, ihts,
      TokenMap.enterType, TokenMap.enterType, TypeInfo.fullName_mark, hmembers, ihnested]

/-- **Tokens do not know about markers:** the marked module is the one that its manifest describes.
Its token map is that of the module before, since the map is made from tokens and keys. -/
theorem Module.mark_ofManifest (i : Nat) (m : Manifest) :
    (Module.ofManifest m).mark p marker i
      = .ofManifest { m with types := TypeDef.markAll p marker [i] 0 m.types } := by
  unfold mark ofManifest TokenMap.ofManifest
  rw [enterTypes_markAll]

/-! ### What could not be loaded -/

/-- A marked member that could not be loaded is still left out, with the same reason. -/
theorem memberSkips_mapIdx_mark (typeName : String) (address : List Nat) (members : List Member) :
    memberSkips typeName (members.mapIdx (Member.mark p marker address))
      = memberSkips typeName members := by
  have hskips : ∀ members : List Member, memberSkips typeName members = (members.map fun m =>
      m.unresolved.map fun reason => Skip.member typeName m.name reason).filterMap id := by
    intro members
    rw [List.filterMap_map]
    rfl
  rw [hskips, hskips, map_mapIdx_mark fun _ => rfl]

/-- The same holds for types at any depth. A type that could not be loaded is left out with all that
is in it, marked or not. -/
theorem skipsOfTypes_markAll (outer : Option String) (address : List Nat) (position : Nat)
    (ts : List TypeDef) :
    skipsOfTypes outer (TypeDef.markAll p marker address position ts) = skipsOfTypes outer ts := by
  induction ts using TypeDef.forestInduction generalizing outer address position with
  | nil => rw [TypeDef.markAll]
  | cons info members nested ts ihnested ihts =>
    rw [TypeDef.markAll, TypeDef.mark, skipsOfTypes, skipsOfTypes, ihts, skipsOfType, skipsOfType,
      TypeInfo.unresolved_mark, TypeInfo.fullName_mark, memberSkips_mapIdx_mark, ihnested]

/-- For one type this is not a case of the lemma before: there the address is that of the type
around. -/
theorem skipsOfType_mark (outer : Option String) (address : List Nat) (t : TypeDef) :
    skipsOfType outer (t.mark p marker address) = skipsOfType outer t := by
  cases t
  rw [TypeDef.mark, skipsOfType, skipsOfType, TypeInfo.unresolved_mark, TypeInfo.fullName_mark,
    memberSkips_mapIdx_mark, skipsOfTypes_markAll]

/-- What marking does not change in a type it does not change in a list of types. -/
theorem map_markAll {β : Type} {f : TypeDef → β}
    (h : ∀ address t, f (TypeDef.mark p marker address t) = f t) (address : List Nat) (position : Nat)
    (ts : List TypeDef) : (TypeDef.markAll p marker address position ts).map f = ts.map f := by
  induction ts generalizing position with
  | nil => rw [TypeDef.markAll]
  | cons t ts ih => rw [TypeDef.markAll, List.map_cons, List.map_cons, h, ih]

/-- The skips of a module do not change. They come in two parts, of which one goes over outermost
types backwards and the other leaves some of them out; `row` is what both parts need to know of each
type. -/
theorem moduleSkips_mark (i : Nat) (m : Module) : moduleSkips (m.mark p marker i) = moduleSkips m := by
  -- What is left out of a module follows from what is said of each of its outermost types.
  let row (t : TypeDef) : Option Skip × List Skip :=
    (t.info.unresolved.map fun reason => Skip.type (t.info.fullName none) reason, skipsOfType none t)
  have hrow : ∀ address t, row (TypeDef.mark p marker address t) = row t := by
    intro address t
    dsimp only [row]
    rw [TypeDef.info_mark, TypeInfo.unresolved_mark, TypeInfo.fullName_mark, skipsOfType_mark]
  have hskips : ∀ ts : List TypeDef, outermostSkips ts ++
      (ts.filter fun t => t.info.unresolved.isNone).flatMap (skipsOfType none)
        = (ts.map row).reverse.filterMap Prod.fst ++
          ((ts.map row).filter fun x => x.1.isNone).flatMap Prod.snd := by
    intro ts
    rw [← List.map_reverse, List.filterMap_map, List.filter_map, List.flatMap_map]
    congr 2
    refine List.filter_congr fun t _ => ?_
    exact (Option.isNone_map).symm
  have htypes : (m.mark p marker i).manifest.types.map row = m.manifest.types.map row :=
    map_markAll hrow [i] 0 m.manifest.types
  unfold moduleSkips
  rw [hskips, hskips, htypes]

/-- **What could not be loaded stays the same,** with the same reasons and in the same order. -/
theorem skips_markModules (modules : List Module) :
    (SymbolTable.ofModules (markModules p marker modules)).skips
      = (SymbolTable.ofModules modules).skips := by
  rw [ofModules_skips, ofModules_skips, List.flatMap_def, List.flatMap_def, markModules,
    map_mapIdx_of_eq moduleSkips_mark]

/-! ### Views -/

/-- The name of a path follows from the outlines of the types on it. -/
theorem pathName_map_outline (path : List TypeInfo) :
    pathName (path.map TypeInfo.outline) = pathName path := by
  cases path with
  | nil => rfl
  | cons top inner =>
    rw [List.map_cons, pathName, pathName, List.map_map]
    rfl

/-- The same nested types could be loaded. -/
theorem loadedPositions_markAll (address : List Nat) (start position : Nat) (ts : List TypeDef) :
    loadedPositions start (TypeDef.markAll p marker address position ts) = loadedPositions start ts := by
  induction ts generalizing start position with
  | nil => rw [TypeDef.markAll]
  | cons t ts ih =>
    rw [TypeDef.markAll, loadedPositions_cons, loadedPositions_cons, ih, TypeDef.info_mark,
      TypeInfo.unresolved_mark]

variable (p) in
/-- The views of a site once everything that a place covers is ignored. -/
def Site.viewsUnder (s : Site) : List (Symbol × Bool) :=
  (⟨s.outline, none⟩, s.isIgnored || p.covers ⟨s.address, none⟩) ::
    s.positioned.map fun x => (⟨s.outline, some (s.memberOutline x.1)⟩,
      s.isIgnored || x.1.ignore.isSome || p.covers ⟨s.address, some x.2⟩)

namespace Site

/-! The site of a type, before and after. Around it there may be markers, too. -/

variable {m m' : Module} {address : List Nat} {enclosing enclosing' : List TypeInfo} {t : TypeDef}

/-- A type keeps its full name, if those around it keep their outlines. -/
theorem pathName_mark (hpath : enclosing'.map TypeInfo.outline = enclosing.map TypeInfo.outline) :
    pathName (Site.path ⟨m', address, enclosing', t.mark p marker address⟩)
      = pathName (Site.path ⟨m, address, enclosing, t⟩) := by
  unfold path
  rw [← pathName_map_outline, ← pathName_map_outline (enclosing ++ [t.info]), List.map_append,
    List.map_append, hpath, List.map_singleton, List.map_singleton, TypeDef.info_mark,
    TypeInfo.outline_mark]

/-- Its members that could be loaded are the same ones, marked by their numbers. Numbers are counted
before any member is left out, so they are taken along from `positioned`. -/
theorem loaded_mark :
    Site.loaded ⟨m', address, enclosing', t.mark p marker address⟩
      = (Site.positioned ⟨m, address, enclosing, t⟩).map fun x => x.1.mark p marker address x.2 := by
  change (t.mark p marker address).members.filter _ = _
  rw [TypeDef.members_mark, List.mapIdx_eq_zipIdx_map, List.filter_map]
  congr 1
  exact List.filter_congr fun x _ => congrArg Option.isNone (Member.unresolved_mark _ _ x.1)

/-- A member keeps its outline in the table, key included. -/
theorem memberOutline_mark
    (hpath : enclosing'.map TypeInfo.outline = enclosing.map TypeInfo.outline) (x : Member × Nat) :
    Site.memberOutline ⟨m', address, enclosing', t.mark p marker address⟩
        (x.1.mark p marker address x.2)
      = Site.memberOutline ⟨m, address, enclosing, t⟩ x.1 := by
  unfold memberOutline
  rw [Member.outline_mark, Member.key_mark, pathName_mark hpath]

/-- A type keeps its outline in the table. It is made of the name, the outline of what the type
declares, its members and the positions of nested types, and none of these changes. -/
theorem outline_mark (hmodule : m'.outline = m.outline)
    (hpath : enclosing'.map TypeInfo.outline = enclosing.map TypeInfo.outline) :
    Site.outline ⟨m', address, enclosing', t.mark p marker address⟩
      = Site.outline ⟨m, address, enclosing, t⟩ := by
  let s : Site := ⟨m, address, enclosing, t⟩
  let s' : Site := ⟨m', address, enclosing', t.mark p marker address⟩
  have hname : pathName s'.path = pathName s.path := pathName_mark hpath
  have hinfo : s'.type.info.outline = s.type.info.outline := by
    change (t.mark p marker address).info.outline = _
    rw [TypeDef.info_mark, TypeInfo.outline_mark]
  have hnested : loadedPositions 0 s'.type.nested = loadedPositions 0 s.type.nested := by
    change loadedPositions 0 (t.mark p marker address).nested = _
    rw [TypeDef.nested_mark, loadedPositions_markAll]
  have hloaded : s'.loaded = s.positioned.map fun x => x.1.mark p marker address x.2 := loaded_mark
  have hmembers : s'.loaded.map s'.memberOutline = s.loaded.map s.memberOutline := by
    rw [hloaded, List.map_map, ← s.map_fst_positioned, List.map_map]
    exact List.map_congr_left fun x _ => memberOutline_mark hpath x
  change s'.outline = s.outline
  unfold outline
  rw [hname, hmembers, hnested, hinfo]
  congr 1

/-- The step at one site: its outline stays, and the marker is on the type, on one of its members, or
comes from the types around it. -/
theorem views_mark (hmodule : m'.outline = m.outline)
    (hpath : enclosing'.map TypeInfo.outline = enclosing.map TypeInfo.outline)
    (hignored : Site.isIgnored ⟨m', address, enclosing', t.mark p marker address⟩
      = (Site.isIgnored ⟨m, address, enclosing, t⟩ || p.covers ⟨address, none⟩)) :
    Site.views ⟨m', address, enclosing', t.mark p marker address⟩
      = Site.viewsUnder p ⟨m, address, enclosing, t⟩ := by
  let s : Site := ⟨m, address, enclosing, t⟩
  have hloaded : Site.loaded ⟨m', address, enclosing', t.mark p marker address⟩
      = s.positioned.map fun x => x.1.mark p marker address x.2 := loaded_mark
  unfold views viewsUnder
  rw [outline_mark hmodule hpath, hloaded, List.map_map, hignored]
  congr 1
  refine List.map_congr_left fun x _ => ?_
  rw [Function.comp_apply, memberOutline_mark hpath]
  congr 1
  -- A member is covered with its type, or alone.
  rw [Member.ignore_mark, Place.covers_member]
  ac_rfl

end Site

/-- **Over the trees of a module,** the views change as the place says. The types around them hand the
marker down, so what encloses them has to be ignored where the place covers it; that is the hypothesis
on `enclosing'`, and the step into a nested type has to give it back. -/
theorem map_views_markAll {m m' : Module} (hmodule : m'.outline = m.outline) (address : List Nat)
    {enclosing enclosing' : List TypeInfo} (position : Nat) (ts : List TypeDef)
    (hpath : enclosing'.map TypeInfo.outline = enclosing.map TypeInfo.outline)
    (hignored : (enclosing'.any fun info => info.ignore.isSome)
      = ((enclosing.any fun info => info.ignore.isSome) || p.covers ⟨address, none⟩)) :
    (sitesOfTypes m' address enclosing' position (TypeDef.markAll p marker address position ts)).map
        Site.views
      = (sitesOfTypes m address enclosing position ts).map (Site.viewsUnder p) := by
  induction ts using TypeDef.forestInduction
    generalizing address enclosing enclosing' position with
  | nil => rw [TypeDef.markAll]; rfl
  | cons info members nested ts ihnested ihts =>
    rw [TypeDef.markAll, sitesOfTypes_cons, sitesOfTypes_cons, List.map_append, List.map_append,
      ihts address (position + 1) hpath hignored]
    congr 1
    have hmark : (info.mark p marker (address ++ [position])).unresolved = info.unresolved :=
      info.unresolved_mark _
    cases hload : info.unresolved with
    | some reason =>
      -- A type that could not be loaded has no site, marked or not.
      rw [TypeDef.mark, sitesOfType_unresolved m' _ _ (hmark.trans hload),
        sitesOfType_unresolved m _ _ hload]
      rfl
    | none =>
      -- The type itself and what is around it, one level further down.
      have hinner : ((enclosing' ++ [info.mark p marker (address ++ [position])]).any
            fun info => info.ignore.isSome)
          = (((enclosing ++ [info]).any fun info => info.ignore.isSome) ||
            p.covers ⟨address ++ [position], none⟩) := by
        rw [List.any_append, List.any_append, hignored, List.any_cons, List.any_nil, List.any_cons,
          List.any_nil, Bool.or_false, Bool.or_false, TypeInfo.ignore_mark, Place.covers_concat]
        ac_rfl
      have houter : (enclosing' ++ [info.mark p marker (address ++ [position])]).map TypeInfo.outline
          = (enclosing ++ [info]).map TypeInfo.outline := by
        rw [List.map_append, List.map_append, hpath, List.map_singleton, List.map_singleton,
          TypeInfo.outline_mark]
      have hnested := ihnested (address ++ [position]) 0 houter hinner
      have htype : TypeDef.mark p marker (address ++ [position]) (.node info members nested)
          = .node (info.mark p marker (address ++ [position]))
            (members.mapIdx (Member.mark p marker (address ++ [position])))
            (TypeDef.markAll p marker (address ++ [position]) 0 nested) := by
        rw [TypeDef.mark]
      rw [htype, sitesOfType_loaded m' _ _ (hmark.trans hload), sitesOfType_loaded m _ _ hload,
        List.map_cons, List.map_cons, hnested, ← htype]
      congr 1
      refine Site.views_mark hmodule hpath ?_
      unfold Site.isIgnored Site.path
      rw [TypeDef.info_mark]
      exact hinner

/-- **Over all modules.** No place covers a whole module, so nothing is ignored around outermost
types. For that the marked place must be one of a type: its address has at least two numbers. -/
theorem map_views_markModules (h : 2 ≤ p.address.length) (modules : List Module) :
    (sitesOfModules (markModules p marker modules)).map Site.views
      = (sitesOfModules modules).map (Site.viewsUnder p) := by
  -- The induction is on the modules that are left, with their numbers counted from `position`.
  have hfrom : ∀ position,
      (sitesFrom position (modules.mapIdx fun i => Module.mark p marker (position + i))).map Site.views
        = (sitesFrom position modules).map (Site.viewsUnder p) := by
    intro position
    unfold sitesFrom
    induction modules generalizing position with
    | nil => rfl
    | cons m modules ih =>
      have hshift : (fun i => Module.mark p marker (position + (i + 1)))
          = fun i => Module.mark p marker (position + 1 + i) := by
        funext i
        rw [Nat.add_right_comm, Nat.add_assoc]
      rw [List.mapIdx_cons, List.zipIdx_cons, List.zipIdx_cons, List.flatMap_cons, List.flatMap_cons,
        List.map_append, List.map_append, hshift, ih]
      congr 1
      have hmodule : (m.mark p marker position).outline = m.outline := rfl
      have hnone : (([] : List TypeInfo).any fun info => info.ignore.isSome)
          = ((([] : List TypeInfo).any fun info => info.ignore.isSome) ||
            p.covers ⟨[position], none⟩) := by
        rw [Place.covers_module h]
        rfl
      exact map_views_markAll hmodule [position] 0 m.manifest.types rfl hnone
  have hzero := hfrom 0
  simp only [Nat.zero_add] at hzero
  exact hzero

/-! ### Tables -/

/-- Going through two lists at once can be done part by part, if the parts are equally long. -/
theorem zipWith_flatMap {α β γ δ : Type} {f : α → List β} {g : α → List γ} (h : β → γ → δ)
    (hlength : ∀ a, (f a).length = (g a).length) (l : List α) :
    List.zipWith h (l.flatMap f) (l.flatMap g) = l.flatMap fun a => List.zipWith h (f a) (g a) := by
  induction l with
  | nil => rfl
  | cons a l ih =>
    rw [List.flatMap_cons, List.flatMap_cons, List.flatMap_cons, List.zipWith_append (hlength a), ih]

/-- The views of a site and its places, side by side, give the views once the place is marked. -/
theorem Site.zipWith_places (s : Site) :
    List.zipWith (fun x q => (x.1, x.2 || p.covers q)) s.views s.places = s.viewsUnder p := by
  unfold views places viewsUnder
  rw [← s.map_fst_positioned, List.map_map, List.zipWith_cons_cons, List.zipWith_map,
    List.zipWith_self]
  rfl

/-- A site has a view, and a place, for the type and one for each member that could be loaded. -/
theorem Site.length_views (s : Site) : s.views.length = s.loaded.length + 1 := by
  rw [views, List.length_cons, List.length_map]

theorem Site.length_viewsUnder (s : Site) : (s.viewsUnder p).length = s.loaded.length + 1 := by
  rw [viewsUnder, List.length_cons, List.length_map, ← s.map_fst_positioned, List.length_map]

theorem Site.length_places (s : Site) : s.places.length = s.loaded.length + 1 := by
  rw [places, List.length_cons, List.length_map, ← s.map_fst_positioned, List.length_map]

variable (p) in
/-- Whether a place covers the symbol with a given handle. -/
def coversHandle (modules : List Module) (h : Handle) : Bool := (placeOf? modules h).any p.covers

/-- **The table after marking:** the outlines are the same, and what the place covers is ignored.
Symbols stand in the same order, so they are compared one by one. -/
theorem map_view_markModules (h : 2 ≤ p.address.length) (modules : List Module) :
    (SymbolTable.ofModules (markModules p marker modules)).symbols.map Symbol.view
      = (SymbolTable.ofModules modules).symbols.map fun s =>
          (s.outline, s.isIgnored || coversHandle p modules s.handle) := by
  -- Looking up the places of the symbols is going through symbols and places at once.
  have hlookup := map_lookup_zip
    (fun (s : Symbol) (q : Option Place) => (s.outline, s.isIgnored || q.any p.covers))
    (length_places modules) (nodup_handles modules)
  have hviews : List.zipWith (fun (s : Symbol) q => (s.outline, s.isIgnored || p.covers q))
        (SymbolTable.ofModules modules).symbols (placesOfModules modules)
      = List.zipWith (fun x q => (x.1, x.2 || p.covers q))
        ((SymbolTable.ofModules modules).symbols.map Symbol.view) (placesOfModules modules) := by
    rw [List.zipWith_map_left]
    rfl
  refine Eq.trans ?_ (hlookup.trans hviews).symm
  rw [map_view_symbols, map_view_symbols, placesOfModules, zipWith_flatMap _ ?_, List.flatMap_def,
    map_views_markModules h, ← List.flatMap_def]
  · exact List.flatMap_congr fun s _ => s.zipWith_places.symm
  · intro s
    rw [s.length_views, s.length_places]

/-- Symbols keep their handles. A handle is a pair of numbers, and the numbers follow from how many
members each type has. -/
theorem map_handle_markModules (h : 2 ≤ p.address.length) (modules : List Module) :
    (SymbolTable.ofModules (markModules p marker modules)).symbols.map Symbol.handle
      = (SymbolTable.ofModules modules).symbols.map Symbol.handle := by
  have hcounts : (sitesOfModules (markModules p marker modules)).map (fun s => s.loaded.length)
      = (sitesOfModules modules).map fun s => s.loaded.length := by
    -- A type has one symbol more than it has members.
    calc _ = ((sitesOfModules (markModules p marker modules)).map Site.views).map
          (fun l => l.length - 1) := by
          rw [List.map_map]
          exact List.map_congr_left fun s _ => by rw [Function.comp_apply, s.length_views]; rfl
      _ = ((sitesOfModules modules).map (Site.viewsUnder p)).map (fun l => l.length - 1) := by
          rw [map_views_markModules h]
      _ = _ := by
          rw [List.map_map]
          exact List.map_congr_left fun s _ => by rw [Function.comp_apply, s.length_viewsUnder]; rfl
  rw [map_handle_symbols, map_handle_symbols, hcounts]

/-- **Ignored symbols still use what they used.** The index is built from all bodies, and it is
incomplete if something could not be loaded; neither depends on what is ignored. -/
theorem ofTable_markModules (h : 2 ≤ p.address.length) (modules : List Module) :
    ReferenceIndex.ofTable (.ofModules (markModules p marker modules))
      = .ofTable (.ofModules modules) := by
  have hbodies : (SymbolTable.ofModules (markModules p marker modules)).bodies.map Body.outline
      = (SymbolTable.ofModules modules).bodies.map Body.outline := by
    rw [SymbolTable.map_outline_bodies, SymbolTable.map_outline_bodies, map_view_markModules h,
      List.filterMap_map, List.filterMap_map]
    rfl
  unfold ReferenceIndex.ofTable SymbolTable.isComplete
  rw [skips_markModules, ← ReferenceIndex.ofBodies_map_outline, hbodies,
    ReferenceIndex.ofBodies_map_outline]

end Marks

/-! ### Reports -/

/-- Two ways to count that exclude each other add up. -/
theorem countP_eq_add {α : Type} {p q r : α → Bool}
    (h : ∀ a, (p a).toNat = (q a).toNat + (r a).toNat) (l : List α) :
    l.countP p = l.countP q + l.countP r := by
  rw [← sum_map_toNat, ← sum_map_toNat, ← sum_map_toNat, ← List.sum_map_add]
  exact congrArg List.sum (List.map_congr_left fun a _ => h a)

/-- **What it means that some symbols are taken out of a report,** and nothing else happens to it. -/
structure Validator.Silences (v : Validator) (before after : SymbolTable) (covered : Handle → Bool) :
    Prop where
  /-- Of the violations there were, -/
  previous : (v.validate before).violations = (v.reported before).map (Finding.violation v.weights)
  /-- those on other symbols stay, in their order. -/
  violations : (v.validate after).violations
    = ((v.reported before).filter fun f => !covered f.symbol.handle).map (Finding.violation v.weights)
  /-- The symbols that were looked at and are covered count as ignored now, -/
  ignored : (v.validate after).ignored = (v.validate before).ignored
    + before.symbols.countP fun s => v.looksAt s && covered s.handle
  /-- and no longer as checked. -/
  symbolsChecked : (v.validate before).symbolsChecked = (v.validate after).symbolsChecked
    + before.symbols.countP fun s => v.looksAt s && covered s.handle
  modulesScanned : (v.validate after).modulesScanned = (v.validate before).modulesScanned
  skippedTypes : (v.validate after).skippedTypes = (v.validate before).skippedTypes
  skippedMembers : (v.validate after).skippedMembers = (v.validate before).skippedMembers
  ruleFaults : (v.validate after).ruleFaults = (v.validate before).ruleFaults
  faults : (v.validate after).faults = (v.validate before).faults

section Reports

variable {v : Validator} {before after : SymbolTable} {covered : Handle → Bool}

/-- Before they are sorted, the violations lose those on covered symbols. The others are found as
before, because the indexes agree. -/
theorem map_violation_findings_of_views (hrules : v.activeRules ⊆ Rule.builtin)
    (hviews : after.symbols.map Symbol.view
      = before.symbols.map fun s => (s.outline, s.isIgnored || covered s.handle))
    (hreferences : ReferenceIndex.ofTable after = .ofTable before) :
    (v.findings after).map (Finding.violation v.weights)
      = ((v.findings before).filter fun f => !covered f.symbol.handle).map
          (Finding.violation v.weights) := by
  have hbefore : (v.context before).references.Agrees (v.context before).references :=
    (ReferenceIndex.exact_ofTable before).agrees (ReferenceIndex.exact_ofTable before)
  have hafter : (v.context after).references.Agrees (v.context before).references := by
    change (ReferenceIndex.ofTable after).Agrees _
    rw [hreferences]
    exact hbefore
  -- The findings on symbols that are not covered, as a list over these symbols.
  have hchosen := v.filter_findings before (fun s => !covered s.handle) fun _ => true
  simp only [Bool.and_true, List.filter_true] at hchosen
  rw [Validator.map_violation_findings hrules hafter rfl, hviews, List.filter_map, List.flatMap_map,
    hchosen, List.map_flatMap]
  -- A pass looks at a view exactly if it looked at the symbol and the symbol is not covered.
  have hlooks : (before.symbols.filter
        (v.looksAtView ∘ fun s => (s.outline, s.isIgnored || covered s.handle)))
      = before.symbols.filter fun s => v.looksAt s && !covered s.handle := by
    refine List.filter_congr fun s _ => ?_
    change (v.eligibleType s.declaringType && !(s.isIgnored || covered s.handle))
      = (v.eligibleType s.declaringType && !s.isIgnored && !covered s.handle)
    rw [Bool.not_or, Bool.and_assoc]
  rw [hlooks]
  exact List.flatMap_congr fun s _ => (Validator.violationsOn_outline hrules hbefore rfl s).symm

/-- **Reports go by views:** if the only change is that covered symbols are ignored, they are taken out
of the report. -/
theorem Validator.silences_of_views (hrules : v.activeRules ⊆ Rule.builtin)
    (hviews : after.symbols.map Symbol.view
      = before.symbols.map fun s => (s.outline, s.isIgnored || covered s.handle))
    (hreferences : ReferenceIndex.ofTable after = .ofTable before)
    (hskips : after.skips = before.skips)
    (hmodules : after.modules.map Module.name = before.modules.map Module.name) :
    v.Silences before after covered := by
  constructor
  case previous => exact v.violations_validate before
  case violations =>
    rw [v.violations_eq_sortOn, map_violation_findings_of_views hrules hviews hreferences,
      v.filter_reported]
    exact (map_sortOn fun _ _ => rfl).symm
  -- A covered symbol was ignored already, or it was looked at, or its type is not eligible; one way
  -- to count is split in two by the cases.
  case ignored =>
    rw [v.ignored_validate, v.ignored_validate, hviews, List.countP_map, List.countP_map]
    refine countP_eq_add (fun s => ?_) before.symbols
    change ((s.isIgnored || covered s.handle) && v.eligibleType s.declaringType).toNat
      = (s.isIgnored && v.eligibleType s.declaringType).toNat
        + (v.eligibleType s.declaringType && !s.isIgnored && covered s.handle).toNat
    cases s.isIgnored <;> cases covered s.handle <;> cases v.eligibleType s.declaringType <;> rfl
  case symbolsChecked =>
    rw [v.symbolsChecked_validate, v.symbolsChecked_validate, hviews, List.countP_map, List.countP_map]
    refine countP_eq_add (fun s => ?_) before.symbols
    change (v.eligibleType s.declaringType && !s.isIgnored).toNat
      = (v.eligibleType s.declaringType && !(s.isIgnored || covered s.handle)).toNat
        + (v.eligibleType s.declaringType && !s.isIgnored && covered s.handle).toNat
    cases s.isIgnored <;> cases covered s.handle <;> cases v.eligibleType s.declaringType <;> rfl
  case modulesScanned =>
    change (after.modules.countP fun m => v.eligible m.name)
      = before.modules.countP fun m => v.eligible m.name
    have hnames := congrArg (List.countP v.eligible) hmodules
    rw [List.countP_map, List.countP_map] at hnames
    exact hnames
  case skippedTypes => exact congrArg (List.countP Skip.isType) hskips
  case skippedMembers => exact congrArg (List.countP fun s => !s.isType) hskips
  case ruleFaults =>
    rw [Validator.ruleFaults_validate hrules, Validator.ruleFaults_validate hrules]
  case faults =>
    rw [Validator.faults_validate hrules, Validator.faults_validate hrules, hskips]

end Reports

/-- **An ignore marker is local.** Let some type or member of some modules get an ignore marker, at
any depth and whether or not it has one already. Then it is the only declaration that changes. In the
table, that symbol and, if it is a type, all that is inside it are ignored from now on, and the others
are as before. A pass of the built-in rules finds the same references as before, so what ignored
symbols use is still in use. Its report loses the violations on the symbols that are ignored now, and
counts these as ignored and not as checked. -/
theorem ignore_marker_is_local (eligible : String → Bool) (disabled : List String)
    (weights : Weights Float) (modules : List Module) (p : Place) (marker : IgnoreMarker)
    {d : Declared} (hdeclared : declaredAt? modules p = some d) :
    let v : Validator := { eligible, disabled, weights }
    let before := SymbolTable.ofModules modules
    let after := SymbolTable.ofModules (markModules p marker modules)
    (∀ q, declaredAt? (markModules p marker modules) q
        = (declaredAt? modules q).map fun d => if p = q then d.mark marker else d) ∧
      (∀ i m, (Module.ofManifest m).mark p marker i
        = .ofManifest { m with types := TypeDef.markAll p marker [i] 0 m.types }) ∧
      (placesOfModules modules).map (declaredAt? modules)
        = before.symbols.map (fun s => some s.declared) ∧
      after.symbols.map (fun s => (s.handle, s.isIgnored))
        = before.symbols.map (fun s => (s.handle, s.isIgnored || coversHandle p modules s.handle)) ∧
      ReferenceIndex.ofTable after = .ofTable before ∧
      v.Silences before after (coversHandle p modules) := by
  intro v before after
  have hlength := two_le_length_address hdeclared
  have hviews : after.symbols.map Symbol.view = before.symbols.map fun s =>
      (s.outline, s.isIgnored || coversHandle p modules s.handle) :=
    map_view_markModules hlength modules
  have hreferences : ReferenceIndex.ofTable after = .ofTable before :=
    ofTable_markModules hlength modules
  refine ⟨declaredAt?_markModules modules, Module.mark_ofManifest, map_declaredAt?_places modules, ?_,
    hreferences, ?_⟩
  -- Handles and flags are two lists, and they are put together to one.
  · have hignored := congrArg (List.map Prod.snd) hviews
    rw [List.map_map, List.map_map] at hignored
    rw [← List.zip_map', ← List.zip_map', map_handle_markModules hlength]
    exact congrArg _ hignored
  · refine Validator.silences_of_views (Validator.activeRules_subset_builtin rfl) hviews hreferences
      (skips_markModules modules) ?_
    have hname : ∀ i m, (Module.mark p marker i m).name = m.name := fun _ _ => rfl
    exact map_mapIdx_of_eq hname modules

/-! A class with a class in it, and one next to it. -/

/-- The module, in which no class has a member. -/
def shellModule : Module :=
  .ofManifest
    { name := "Game"
      types := [.node { name := "Shell" } [] [.node { name := "Core" } [] []],
        .node { name := "Shop" } [] []] }

def shellType : TypeEntry where
  id := 0
  module := shellModule
  parent := none
  fullName := "Shell"
  info := { name := "Shell" }
  nested := [1]
  isIgnored := false
  members := []

def coreType : TypeEntry :=
  { shellType with
    id := 1
    parent := some 0
    fullName := "Shell+Core"
    info := { name := "Core" }
    nested := [] }

def shopType : TypeEntry :=
  { shellType with id := 2, fullName := "Shop", info := { name := "Shop" }, nested := [] }

/-- The classes in the order of the table, the inner one right after the outer one. -/
theorem symbols_shellModule : (SymbolTable.ofModules [shellModule]).symbols
    = [⟨shellType, none⟩, ⟨coreType, none⟩, ⟨shopType, none⟩] := by
  rw [SymbolTable.symbols, ofModules_types]
  rfl

/-- What the place of the outer class covers, as a table of handles that can be evaluated. -/
theorem coversHandle_shellModule :
    coversHandle ⟨[0, 0], none⟩ [shellModule] = fun h =>
      ([(⟨0, none⟩, ⟨[0, 0], none⟩), (⟨1, none⟩, ⟨[0, 0, 0], none⟩), (⟨2, none⟩, ⟨[0, 1], none⟩)].lookup
        h).any (Place.covers ⟨[0, 0], none⟩) := by
  unfold coversHandle placeOf?
  rw [symbols_shellModule]
  rfl

/-- A marker with a justification. -/
def vendored : IgnoreMarker := ⟨"vendored", by decide⟩

/-- What is found on a class without members. -/
def placeholderFinding (type : TypeEntry) : Finding :=
  ⟨⟨type, none⟩, .placeholderType, "Type is a placeholder with no members"⟩

/-- A marker on the outer class takes the inner one out of the report, and leaves the one next to it. -/
theorem violations_shellModule_marked :
    let before := SymbolTable.ofModules [shellModule]
    let after := SymbolTable.ofModules (markModules ⟨[0, 0], none⟩ vendored [shellModule])
    (Validator.findings {} before) = [placeholderFinding coreType, placeholderFinding shopType] ∧
      (Validator.validate {} after).violations
        = [Finding.violation .standard (placeholderFinding shopType)] ∧
      (Validator.validate {} after).ignored = (Validator.validate {} before).ignored + 2 := by
  intro before after
  obtain ⟨-, -, -, -, -, hsilences⟩ := ignore_marker_is_local (fun _ => true) [] .standard
    [shellModule] ⟨[0, 0], none⟩ vendored (d := .type { name := "Shell" }) rfl
  have hfindings : Validator.findings {} before
      = [placeholderFinding coreType, placeholderFinding shopType] := by
    rw [Validator.findings_eq, symbols_shellModule]
    rfl
  refine ⟨hfindings, ?_, ?_⟩
  · have hkept : ([placeholderFinding coreType, placeholderFinding shopType].filter fun f =>
        !coversHandle ⟨[0, 0], none⟩ [shellModule] f.symbol.handle) = [placeholderFinding shopType] := by
      rw [coversHandle_shellModule]
      rfl
    have hviolations := hsilences.violations
    rw [Validator.filter_reported, hfindings, hkept, sortOn_singleton] at hviolations
    exact hviolations
  · have hignored := hsilences.ignored
    rw [symbols_shellModule, coversHandle_shellModule] at hignored
    exact hignored

end CilLint
