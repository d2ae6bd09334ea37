import CilLint.Proofs.Site

/-!
# The work stack enters the sites

Enumeration keeps a stack of types that wait and a table that it fills, and patches the entry of a
type each time one nested in it is entered. Here this is shown to come to the same as the recursion
of `Proofs.Site`: `ofModules_types` says that the types of the table are the entries of the sites.

The stack is dealt with by `EntersFirst.types`: if types that are declared next to each other are on
top of the stack, then what lies below waits until exactly their sites are entered. What has been
done by then is an `Enumeration.extend`: the type around them has been told about them, their
entries and skips have been added. Extensions compose (`extend_extend`), and entering a type and
then extending by what is nested in it is an extension again (`extend_enter`); the induction on
trees needs nothing else.

What was left out comes with the same induction (`ofModules_skips`), and it is nothing exactly if
everything could be loaded (`ofModules_skips_eq_nil_iff`).
-/

namespace CilLint

/-! ### Extensions -/

namespace Enumeration

/-- An enumeration after types nested in `parent`, and what is nested in these, were entered. -/
def extend (e : Enumeration) (parent : Option Nat) (ids : List Nat) (entries : List TypeEntry)
    (skips : List Skip) : Enumeration where
  types := noteNested parent ids e.types ++ entries.toArray
  members := e.members + (entries.flatMap TypeEntry.members).length
  skips := e.skips ++ skips.toArray

/-- The entry at a position is told about the types nested in it if it is the one around them. -/
theorem getElem?_noteNested (parent : Option Nat) (ids : List Nat) (types : Array TypeEntry)
    (j : Nat) :
    (noteNested parent ids types)[j]? = types[j]?.map fun t =>
      if parent = some j then { t with nested := t.nested ++ ids } else t := by
  cases parent with
  | none => simp [noteNested]
  | some p =>
    rw [noteNested, Array.getElem?_modify]
    by_cases hp : p = j
    · simp [hp]
    · simp [hp]

/-- Telling a type about those nested in it adds no entry, so positions stay what they are. -/
@[simp] theorem size_noteNested (parent : Option Nat) (ids : List Nat) (types : Array TypeEntry) :
    (noteNested parent ids types).size = types.size := by
  cases parent with
  | none => rfl
  | some p => exact Array.size_modify

theorem noteNested_nil (parent : Option Nat) (types : Array TypeEntry) :
    noteNested parent [] types = types := by
  apply Array.ext_getElem?
  intro j
  rw [getElem?_noteNested]
  simp

/-- What is told in two steps is told at once. The enumeration tells a type about one nested type at a
time, and the statements below say it for all of them together. -/
theorem noteNested_noteNested (parent : Option Nat) (ids ids' : List Nat)
    (types : Array TypeEntry) :
    noteNested parent ids' (noteNested parent ids types) = noteNested parent (ids ++ ids') types := by
  apply Array.ext_getElem?
  intro j
  rw [getElem?_noteNested, getElem?_noteNested, getElem?_noteNested, Option.map_map]
  congr 1
  funext t
  by_cases hp : parent = some j
  · simp [hp]
  · simp [hp]

/-- Entries that were added later are not touched. The type around must be in the table already, or
the number would be that of one of the new entries. -/
theorem noteNested_append {parent : Option Nat} {types : Array TypeEntry}
    (h : ∀ p ∈ parent, p < types.size) (ids : List Nat) (entries : Array TypeEntry) :
    noteNested parent ids (types ++ entries) = noteNested parent ids types ++ entries := by
  apply Array.ext_getElem?
  intro j
  rw [getElem?_noteNested, Array.getElem?_append, Array.getElem?_append, size_noteNested]
  by_cases hj : j < types.size
  · rw [if_pos hj, if_pos hj, getElem?_noteNested]
  · have hp : parent ≠ some j := fun hp => hj (h j hp)
    simp [hj, hp]

/-- A type that is the last entry is told right there. -/
theorem noteNested_push {types : Array TypeEntry} {id : Nat} (hid : id = types.size)
    (ids : List Nat) (t : TypeEntry) :
    noteNested (some id) ids (types.push t) = types.push { t with nested := t.nested ++ ids } := by
  subst hid
  apply Array.ext_getElem?
  intro j
  rw [getElem?_noteNested, Array.getElem?_push, Array.getElem?_push]
  by_cases hj : j = types.size
  · simp [hj]
  · have hne : some types.size ≠ some j := by simp [Ne.symm hj]
    simp [hj, hne]

theorem extend_nil (e : Enumeration) (parent : Option Nat) : e.extend parent [] [] [] = e := by
  rw [extend, noteNested_nil]
  simp

/-- **Extensions compose,** if both are below the same type. This is the step from one type to the
next that is declared beside it. -/
theorem extend_extend {e : Enumeration} {parent : Option Nat} (h : ∀ p ∈ parent, p < e.types.size)
    (ids ids' : List Nat) (entries entries' : List TypeEntry) (skips skips' : List Skip) :
    (e.extend parent ids entries skips).extend parent ids' entries' skips'
      = e.extend parent (ids ++ ids') (entries ++ entries') (skips ++ skips') := by
  have hsize : ∀ p ∈ parent, p < (noteNested parent ids e.types).size := by
    simpa using h
  simp only [extend, mk.injEq]
  refine ⟨?_, ?_, ?_⟩
  · -- The type around lies before all entries, so it can be told before they are added.
    rw [noteNested_append hsize, noteNested_noteNested, Array.append_assoc]
    simp
  · rw [List.flatMap_append, List.length_append, Nat.add_assoc]
  · rw [Array.append_assoc]
    simp

/-- What is left out before an extension could as well be part of it. -/
theorem extend_skip (e : Enumeration) (s : Skip) (parent : Option Nat) (ids : List Nat)
    (entries : List TypeEntry) (skips : List Skip) :
    (e.skip s).extend parent ids entries skips = e.extend parent ids entries (s :: skips) := by
  simp only [extend, skip, mk.injEq, true_and]
  rw [Array.push_eq_append, Array.append_assoc]
  simp

/-- Entering a type and then what is nested in it is an extension below the type around it. The two
extensions are not below the same type, so `extend_extend` does not apply: the inner one is below the
type that is entered, and that type is the first entry of the outer one. -/
theorem extend_enter (e : Enumeration) (m : Module) (p : Pending) (ids : List Nat)
    (entries : List TypeEntry) (skips : List Skip) :
    (e.enter m p).extend (some e.types.size) ids entries skips
      = e.extend p.parent [e.types.size] ({ e.nextEntry m p with nested := ids } :: entries)
          (memberSkips p.fullName p.type.members ++ skips) := by
  have hid : e.types.size = (noteNested p.parent [e.types.size] e.types).size :=
    (size_noteNested _ _ _).symm
  simp only [extend, enter, mk.injEq]
  refine ⟨?_, ?_, ?_⟩
  · -- The new entry is the last one, and what is nested in it goes there.
    rw [noteNested_push hid, Array.push_eq_append, Array.append_assoc]
    simp [nextEntry]
  · rw [List.flatMap_cons, List.length_append, Nat.add_assoc]
  · rw [Array.append_assoc]
    simp

end Enumeration

/-! ### Entries of sites -/

@[simp] theorem length_entriesFrom (all : List Site) (start : Nat) (sites : List Site) :
    (entriesFrom all start sites).length = sites.length := by
  rw [entriesFrom, List.length_map, List.length_zipIdx]

/-- The entries of sites are numbered one after another. -/
theorem entriesFrom_cons (all : List Site) (start : Nat) (s : Site) (sites : List Site) :
    entriesFrom all start (s :: sites) = s.entry all start :: entriesFrom all (start + 1) sites := by
  rw [entriesFrom, List.zipIdx_cons]
  rfl

/-- Entries of sites are made part by part; the second part goes on counting where the first one
ends. -/
theorem entriesFrom_append (all : List Site) (start : Nat) (sites sites' : List Site) :
    entriesFrom all start (sites ++ sites')
      = entriesFrom all start sites ++ entriesFrom all (start + sites.length) sites' := by
  rw [entriesFrom, List.zipIdx_append, List.map_append]
  rfl

/-- The members of the entries are those of the sites that could be loaded, in number. -/
theorem length_members_entriesFrom (all : List Site) (start : Nat) (sites : List Site) :
    ((entriesFrom all start sites).flatMap TypeEntry.members).length
      = (sites.flatMap Site.loaded).length := by
  induction sites generalizing start with
  | nil => rfl
  | cons s sites ih =>
    rw [entriesFrom_cons, List.flatMap_cons, List.flatMap_cons, List.length_append,
      List.length_append, ih, Site.entry, List.length_map, List.length_zipIdx]

namespace Enumeration

/-- An enumeration that has come past some sites: the next numbers are those after them. -/
structure Past (e : Enumeration) (before : List Site) : Prop where
  types : e.types.size = before.length
  members : e.members = (before.flatMap Site.loaded).length

/-- An extension by the entries of some sites comes past these sites too. -/
theorem Past.extend {e : Enumeration} {before : List Site} (h : e.Past before) (all : List Site)
    (parent : Option Nat) (ids : List Nat) (sites : List Site) (skips : List Skip) :
    (e.extend parent ids (entriesFrom all before.length sites) skips).Past (before ++ sites) where
  types := by simp [Enumeration.extend, h.types]
  members := by
    rw [Enumeration.extend, length_members_entriesFrom, h.members, List.flatMap_append,
      List.length_append]

/-- How a type waits on the stack that is nested in the types of a path. -/
def pendingAt (parent : Option Nat) (enclosing : List TypeInfo) (t : TypeDef) : Pending :=
  ⟨t, parent, outerName enclosing, enclosing.any fun info => info.ignore.isSome⟩

/-- A type on the stack has the name of its whole path, although it only keeps the name of the type
around it. -/
theorem fullName_pendingAt (parent : Option Nat) (enclosing : List TypeInfo) (t : TypeDef) :
    (pendingAt parent enclosing t).fullName = pathName (enclosing ++ [t.info]) :=
  (pathName_concat enclosing t.info).symm

/-- It is ignored if some type of its path is, although it only keeps whether one around it is. -/
theorem carriesIgnore_pendingAt (parent : Option Nat) (enclosing : List TypeInfo) (t : TypeDef) :
    (pendingAt parent enclosing t).carriesIgnore
      = (enclosing ++ [t.info]).any fun info => info.ignore.isSome := by
  rw [List.any_append, List.any_cons, List.any_nil, Bool.or_false]
  rfl

/-- What is put on the stack for the nested types of a type is how these wait, with a path that is
longer by the type. -/
theorem child_pendingAt (parent : Option Nat) (enclosing : List TypeInfo) (t : TypeDef)
    (id : Nat) :
    (pendingAt parent enclosing t).child id = pendingAt (some id) (enclosing ++ [t.info]) := by
  funext u
  rw [Pending.child, carriesIgnore_pendingAt, fullName_pendingAt, pathName_concat, pendingAt,
    outerName_concat]

/-- Told about what is nested in it, the entry that is made for a site is the entry of the site. For
this the enumeration must have come past exactly the sites before it, since its numbers are counted
from what is in the table. -/
theorem nextEntry_eq {all before after : List Site} {s : Site} {e : Enumeration}
    {parent : Option Nat} (hall : all = before ++ s :: after) (he : e.Past before)
    (hparent : parent = if s.enclosing.isEmpty then none else some (indexOf all s.address.dropLast)) :
    { e.nextEntry s.module (pendingAt parent s.enclosing s.type) with
        nested := (loadedPositions 0 s.type.nested).map fun k => indexOf all (s.address ++ [k]) }
      = s.entry all before.length := by
  have htake : all.take before.length = before := by rw [hall, List.take_left' rfl]
  rw [nextEntry, fullName_pendingAt, carriesIgnore_pendingAt, he.types, he.members, Site.entry, htake,
    hparent]
  rfl

/-- Entering a type comes past its site. -/
theorem Past.enter {e : Enumeration} {before : List Site} (h : e.Past before) (s : Site)
    (parent : Option Nat) :
    (e.enter s.module (pendingAt parent s.enclosing s.type)).Past (before ++ [s]) where
  types := by simp [Enumeration.enter, h.types]
  members := by
    rw [Enumeration.enter, nextEntry, enumerateMembers, List.length_map, List.length_zipIdx,
      h.members, List.flatMap_append, List.flatMap_singleton, List.length_append]
    rfl

/-- One step of the stack at a type that could not be loaded. -/
theorem run_skip (m : Module) (e : Enumeration) {p : Pending} {reason : String}
    (h : p.type.info.unresolved = some reason) (stack : List Pending) :
    e.run m (p :: stack) = (e.skip (.type p.fullName reason)).run m stack := by
  rw [run, h]

/-- One step of the stack at a type that could be loaded: it is entered, and what is nested in it is
put on top. -/
theorem run_enter (m : Module) (e : Enumeration) {p : Pending} (h : p.type.info.unresolved = none)
    (stack : List Pending) :
    e.run m (p :: stack)
      = (e.enter m p).run m (p.type.nested.map (p.child e.types.size) ++ stack) := by
  rw [run, h, ← Pending.push_eq]

end Enumeration

/-! ### The stack -/

/-- What it means for sites among all of them that the types on top of the stack lead to them:
before anything below is looked at, the sites are entered in this order, the skips are left behind,
and the type around those on the stack is told their numbers. -/
def EntersFirst (all : List Site) (m : Module) (parent : Option Nat) (top : List Pending)
    (ids : List Nat) (sites : List Site) (skips : List Skip) : Prop :=
  ∀ (before after : List Site) (e : Enumeration) (stack : List Pending),
    all = before ++ (sites ++ after) → e.Past before → (∀ p ∈ parent, p < e.types.size) →
      e.run m (top ++ stack)
        = (e.extend parent ids (entriesFrom all before.length sites) skips).run m stack

namespace EntersFirst

variable {all : List Site} {m : Module} {parent : Option Nat}

theorem nil : EntersFirst all m parent [] [] [] [] := by
  intro before after e stack _ _ _
  change e.run m stack = (e.extend parent [] [] []).run m stack
  rw [Enumeration.extend_nil]

/-- If the upper types lead to some sites and the lower ones to others, then together they lead to
both, in this order. The second part starts with what the first part left behind. -/
theorem append {top top' : List Pending} {ids ids' : List Nat} {sites sites' : List Site}
    {skips skips' : List Skip} (h : EntersFirst all m parent top ids sites skips)
    (h' : EntersFirst all m parent top' ids' sites' skips') :
    EntersFirst all m parent (top ++ top') (ids ++ ids') (sites ++ sites') (skips ++ skips') := by
  intro before after e stack hall he hlt
  have hall' : all = before ++ sites ++ (sites' ++ after) := by
    rw [hall, List.append_assoc, List.append_assoc]
  -- The type around both is still in the table after the first part.
  have hlt' : ∀ p ∈ parent,
      p < (e.extend parent ids (entriesFrom all before.length sites) skips).types.size := by
    intro p hp
    have := hlt p hp
    rw [(he.extend all parent ids sites skips).types, List.length_append, ← he.types]
    omega
  -- First the upper types with the lower ones as part of the stack, then the lower ones, and then
  -- the two extensions are one.
  rw [List.append_assoc, h before (sites' ++ after) e _ (by rw [hall, List.append_assoc]) he hlt,
    h' (before ++ sites) after _ stack hall' (he.extend all parent ids sites skips) hlt',
    Enumeration.extend_extend hlt, List.length_append, entriesFrom_append]

/-- A type that could not be loaded leaves a skip behind. -/
theorem unresolved {p : Pending} {reason : String} (h : p.type.info.unresolved = some reason) :
    EntersFirst all m parent [p] [] [] [.type p.fullName reason] := by
  intro before after e stack _ _ _
  have hextend := e.extend_skip (.type p.fullName reason) parent [] [] []
  rw [Enumeration.extend_nil] at hextend
  -- There are no entries, so this is an extension by a skip alone.
  change e.run m (p :: stack) = (e.extend parent [] [] _).run m stack
  rw [Enumeration.run_skip m e h, hextend]

/-- A type that could be loaded is entered, and then what is nested in it. -/
theorem loaded {s : Site} {below : List Site} {skips : List Skip}
    (hnodup : (all.map Site.address).Nodup) (hload : s.type.info.unresolved = none)
    (hparent : parent = if s.enclosing.isEmpty then none else some (indexOf all s.address.dropLast))
    (hnested : EntersFirst all s.module (some (indexOf all s.address))
      (s.type.nested.map (Enumeration.pendingAt (some (indexOf all s.address)) s.path))
      ((loadedPositions 0 s.type.nested).map fun k => indexOf all (s.address ++ [k])) below skips) :
    EntersFirst all s.module parent [Enumeration.pendingAt parent s.enclosing s.type]
      [indexOf all s.address] (s :: below)
      (memberSkips (pathName s.path) s.type.members ++ skips) := by
  intro before after e stack hall he hlt
  -- The type gets the next number, which is its position among all sites, since they come past in
  -- order.
  have hid : indexOf all s.address = e.types.size := by
    rw [he.types]
    exact indexOf_eq hnodup (by simp [hall])
  have hall' : all = before ++ [s] ++ (below ++ after) := by
    rw [hall, List.append_assoc]
    rfl
  have hentered := he.enter s parent
  have hlt' : ∀ p ∈ some (indexOf all s.address),
      p < (e.enter s.module (Enumeration.pendingAt parent s.enclosing s.type)).types.size := by
    intro p hp
    rw [hentered.types, List.length_append, ← he.types, ← Option.mem_some_iff.mp hp, hid]
    exact Nat.lt_succ_self _
  -- Once the type is entered, those nested in it are on top and it is the one around them.
  have hinner := hnested (before ++ [s]) after _ stack hall' hentered hlt'
  rw [hid] at hinner ⊢
  have henter := Enumeration.run_enter s.module e
    (p := Enumeration.pendingAt parent s.enclosing s.type) hload stack
  rw [Enumeration.child_pendingAt] at henter
  rw [List.singleton_append, henter]
  change _ = (e.extend _ _ (entriesFrom all before.length (s :: below)) _).run _ _
  refine hinner.trans ?_
  rw [Enumeration.extend_enter, Enumeration.nextEntry_eq hall he hparent, entriesFrom_cons,
    Enumeration.fullName_pendingAt, List.length_append]
  rfl

/-- One type on the stack leads to its sites, if the types nested in it lead to theirs. It is the step
of the induction on forests: a type is left out, or it is entered and the stack grows by what is
nested in it. -/
theorem ofNested (hnodup : (all.map Site.address).Nodup) {address : List Nat}
    {enclosing : List TypeInfo} {info : TypeInfo} (members : List Member) {nested : List TypeDef}
    (hparent : parent = if enclosing.isEmpty then none else some (indexOf all address.dropLast))
    (hnested : EntersFirst all m (some (indexOf all address))
      (nested.map (Enumeration.pendingAt (some (indexOf all address)) (enclosing ++ [info])))
      ((loadedPositions 0 nested).map fun k => indexOf all (address ++ [k]))
      (sitesOfTypes m address (enclosing ++ [info]) 0 nested)
      (skipsOfTypes (outerName (enclosing ++ [info])) nested)) :
    EntersFirst all m parent [Enumeration.pendingAt parent enclosing (.node info members nested)]
      (if info.unresolved.isNone then [indexOf all address] else [])
      (sitesOfType m address enclosing (.node info members nested))
      (skipsOfType (outerName enclosing) (.node info members nested)) := by
  cases hload : info.unresolved with
  | some reason =>
    rw [sitesOfType_unresolved m _ _ hload, skipsOfType, hload]
    exact unresolved hload
  | none =>
    have hloaded := loaded (s := ⟨m, address, enclosing, .node info members nested⟩) hnodup hload
      hparent hnested
    rw [sitesOfType_loaded m _ _ hload, skipsOfType, hload]
    rw [Site.path, TypeDef.info_node, pathName_concat, outerName_concat] at hloaded
    exact hloaded

/-- **The stack is a recursion.** Types that are declared next to each other lead to their sites. The
induction is on forests, with the path, the position of the first type and the type around them left
open, since all of these change on the way in. -/
theorem types (hnodup : (all.map Site.address).Nodup) (ts : List TypeDef) {address : List Nat}
    {enclosing : List TypeInfo} (position : Nat)
    (hparent : parent = if enclosing.isEmpty then none else some (indexOf all address)) :
    EntersFirst all m parent (ts.map (Enumeration.pendingAt parent enclosing))
      ((loadedPositions position ts).map fun k => indexOf all (address ++ [k]))
      (sitesOfTypes m address enclosing position ts) (skipsOfTypes (outerName enclosing) ts) := by
  induction ts using TypeDef.forestInduction
    generalizing address enclosing position parent with
  | nil => exact nil
  | cons info members nested ts ihnested ihts =>
    have hinner : some (indexOf all (address ++ [position])) =
        if (enclosing ++ [info]).isEmpty then none
        else some (indexOf all (address ++ [position])) := by
      simp
    -- Seen from the first type, the type around it has an address that is shorter by the last
    -- number.
    have houter : parent = if enclosing.isEmpty then none
        else some (indexOf all (address ++ [position]).dropLast) := by
      rw [List.dropLast_concat]
      exact hparent
    -- The first tree by the hypothesis for what is nested in it, the others by that for the rest.
    have hfirst := ofNested hnodup members houter (ihnested 0 hinner)
    have happend := hfirst.append (ihts (position + 1) hparent)
    have hids : (loadedPositions position (.node info members nested :: ts)).map
        (fun k => indexOf all (address ++ [k]))
        = (if info.unresolved.isNone then [indexOf all (address ++ [position])] else []) ++
          (loadedPositions (position + 1) ts).map fun k => indexOf all (address ++ [k]) := by
      rw [loadedPositions_cons, TypeDef.info_node]
      split <;> rfl
    rw [hids, sitesOfTypes_cons, skipsOfTypes, List.map_cons]
    exact happend

end EntersFirst

/-! ### Modules -/

/-- The skips of the outermost types of a module that could not be loaded. They come first, from the
last to the first. -/
def outermostSkips (types : List TypeDef) : List Skip :=
  types.reverse.filterMap fun t =>
    t.info.unresolved.map fun reason => Skip.type (t.info.fullName none) reason

/-- What is left out of a module. -/
def moduleSkips (m : Module) : List Skip :=
  outermostSkips m.manifest.types ++
    (m.manifest.types.filter fun t => t.info.unresolved.isNone).flatMap (skipsOfType none)

/-- Outermost types that could be loaded lead to their sites. Those that could not are not on the
stack, but they keep their positions. -/
theorem EntersFirst.outermost {all : List Site} {m : Module}
    (hnodup : (all.map Site.address).Nodup) (address : List Nat) (position : Nat)
    (ts : List TypeDef) :
    ∃ ids, EntersFirst all m none
      ((ts.filter fun t => t.info.unresolved.isNone).map (Enumeration.pendingAt none [])) ids
      (sitesOfTypes m address [] position ts)
      ((ts.filter fun t => t.info.unresolved.isNone).flatMap (skipsOfType none)) := by
  induction ts generalizing position with
  | nil => exact ⟨[], nil⟩
  | cons t ts ih =>
    obtain ⟨ids, hrest⟩ := ih (position + 1)
    cases t with
    | node info members nested =>
      rw [sitesOfTypes_cons]
      cases hload : info.unresolved with
      | some reason =>
        rw [List.filter_cons_of_neg (by simp [hload]), sitesOfType_unresolved m _ _ hload]
        exact ⟨ids, hrest⟩
      | none =>
        -- With no type around, nobody is told the numbers, so it does not matter what they are.
        rw [List.filter_cons_of_pos (by simp [hload])]
        exact ⟨_, (ofNested hnodup members rfl (types hnodup nested 0 (by simp))).append hrest⟩

namespace Enumeration

/-- Types of a module are put on the stack from the last one on. One that could not be loaded is left
out and leaves its skip behind those of the types after it. -/
theorem prepare_cons_unresolved (e : Enumeration) {t : TypeDef} {reason : String}
    (h : t.info.unresolved = some reason) (ts : List TypeDef) :
    e.prepare (t :: ts)
      = ((e.prepare ts).1.skip (.type (t.info.fullName none) reason), (e.prepare ts).2) := by
  simp only [prepare, List.foldr_cons, h]

/-- One that could be loaded waits on top, with nothing around it. Going from the last type to the
first leaves the first one on top. -/
theorem prepare_cons_loaded (e : Enumeration) {t : TypeDef} (h : t.info.unresolved = none)
    (ts : List TypeDef) :
    e.prepare (t :: ts) = ((e.prepare ts).1, pendingAt none [] t :: (e.prepare ts).2) := by
  simp only [prepare, List.foldr_cons, h]
  rfl

/-- The skips of outermost types come from the last type to the first, as they are left behind. -/
theorem outermostSkips_cons (t : TypeDef) (ts : List TypeDef) :
    outermostSkips (t :: ts) = outermostSkips ts ++
      (t.info.unresolved.map fun reason => Skip.type (t.info.fullName none) reason).toList := by
  rw [outermostSkips, List.reverse_cons, List.filterMap_append]
  cases hload : t.info.unresolved with
  | some reason => simp [outermostSkips, hload]
  | none => simp [outermostSkips, hload]

/-- **How a module is put on the stack:** its outermost types that could be loaded, in their order,
and the skips of the others. -/
theorem prepare_eq (e : Enumeration) (ts : List TypeDef) :
    e.prepare ts = (e.extend none [] [] (outermostSkips ts),
      (ts.filter fun t => t.info.unresolved.isNone).map (pendingAt none [])) := by
  induction ts with
  | nil => exact Prod.ext (e.extend_nil none).symm rfl
  | cons t ts ih =>
    rw [outermostSkips_cons]
    cases hload : t.info.unresolved with
    | some reason =>
      rw [e.prepare_cons_unresolved hload, ih, List.filter_cons_of_neg (by simp [hload])]
      simp [skip, extend]
    | none =>
      rw [e.prepare_cons_loaded hload, ih, List.filter_cons_of_pos (by simp [hload]),
        Option.map_none, Option.toList_none, List.append_nil, List.map_cons]

/-- Entering a module enters its sites and leaves its skips behind, those of outermost types first.
The stack is empty before and after. -/
theorem enterModule_eq {all before after : List Site} (hnodup : (all.map Site.address).Nodup)
    {m : Module} {address : List Nat} {e : Enumeration}
    (hall : all = before ++ (sitesOfTypes m address [] 0 m.manifest.types ++ after))
    (he : e.Past before) :
    e.enterModule m = e.extend none []
      (entriesFrom all before.length (sitesOfTypes m address [] 0 m.manifest.types))
      (moduleSkips m) := by
  -- Preparing the stack only adds skips, so the next numbers stay the same.
  have hprepared : (e.extend none [] [] (outermostSkips m.manifest.types)).Past before :=
    ⟨by simp [extend, noteNested, he.types], he.members⟩
  obtain ⟨ids, hfirst⟩ := EntersFirst.outermost (m := m) hnodup address 0 m.manifest.types
  have hrun := hfirst before after _ [] hall hprepared (by simp)
  rw [List.append_nil] at hrun
  rw [enterModule, prepare_eq]
  change (e.extend none [] [] (outermostSkips m.manifest.types)).run m _ = _
  rw [hrun, extend_extend (by simp), run, moduleSkips]
  rfl

/-- Entering several modules enters the sites of all of them. The invariant is that the enumeration
has come past the sites of the modules before. -/
theorem foldl_enterModule {all before after : List Site} (hnodup : (all.map Site.address).Nodup)
    {modules : List Module} {position : Nat} {e : Enumeration}
    (hall : all = before ++ (sitesFrom position modules ++ after)) (he : e.Past before) :
    modules.foldl enterModule e = e.extend none []
      (entriesFrom all before.length (sitesFrom position modules))
      (modules.flatMap moduleSkips) := by
  induction modules generalizing position before e with
  | nil => exact (e.extend_nil none).symm
  | cons m modules ih =>
    have hsites : sitesFrom position (m :: modules)
        = sitesOfTypes m [position] [] 0 m.manifest.types ++ sitesFrom (position + 1) modules := by
      rw [sitesFrom, List.zipIdx_cons, List.flatMap_cons]
      rfl
    rw [hsites] at hall ⊢
    have hmodule := enterModule_eq hnodup (hall.trans (by rw [List.append_assoc])) he
    -- For the other modules the sites of this one are before them.
    have hall' : all = before ++ sitesOfTypes m [position] [] 0 m.manifest.types ++
        (sitesFrom (position + 1) modules ++ after) := by
      rw [hall, List.append_assoc, List.append_assoc]
    rw [List.foldl_cons, hmodule, ih hall' (he.extend all none [] _ (moduleSkips m)),
      extend_extend (by simp), entriesFrom_append, List.length_append, List.flatMap_cons]
    rfl

end Enumeration

/-- The same from an empty table, where all sites are still to come. -/
theorem foldl_enterModule_empty (modules : List Module) :
    modules.foldl Enumeration.enterModule {} = Enumeration.extend {} none []
      (entriesFrom (sitesOfModules modules) 0 (sitesOfModules modules))
      (modules.flatMap moduleSkips) := by
  have hall : sitesOfModules modules = [] ++ (sitesFrom 0 modules ++ []) := by
    rw [List.append_nil]
    rfl
  exact Enumeration.foldl_enterModule (preordered_sites modules).nodup hall ⟨rfl, rfl⟩

/-- **The table has the entries of the sites,** numbered in their order. This is what all further
results on tables start from; none of them mentions the stack. -/
theorem ofModules_types (modules : List Module) :
    (SymbolTable.ofModules modules).types
      = entriesFrom (sitesOfModules modules) 0 (sitesOfModules modules) := by
  rw [SymbolTable.ofModules, foldl_enterModule_empty]
  simp [Enumeration.extend, Enumeration.noteNested]

/-- **What is left out** comes in the order of the modules, and nothing that one module leaves out
depends on the others. -/
theorem ofModules_skips (modules : List Module) :
    (SymbolTable.ofModules modules).skips = modules.flatMap moduleSkips := by
  rw [SymbolTable.ofModules, foldl_enterModule_empty]
  simp [Enumeration.extend]

/-! ### Nothing left out -/

mutual

/-- Whether a type and all that is in it could be loaded. -/
def TypeDef.isLoaded : TypeDef → Bool
  | .node info members nested =>
    info.unresolved.isNone && (members.all fun m => m.unresolved.isNone) &&
      TypeDef.areLoaded nested

/-- Whether several types and all that is in them could be loaded. -/
def TypeDef.areLoaded : List TypeDef → Bool
  | [] => true
  | t :: ts => t.isLoaded && TypeDef.areLoaded ts

end

/-- No member is left out of a type exactly if all of them could be loaded. -/
theorem memberSkips_eq_nil_iff {typeName : String} {members : List Member} :
    memberSkips typeName members = [] ↔ (members.all fun m => m.unresolved.isNone) = true := by
  rw [memberSkips, List.filterMap_eq_nil_iff]
  simp

/-- Nothing in some types is left out exactly if all that is in them could be loaded. A type that
could not be loaded hides what is nested in it, but then it is left out itself. -/
theorem skipsOfTypes_eq_nil_iff {outer : Option String} {ts : List TypeDef} :
    skipsOfTypes outer ts = [] ↔ TypeDef.areLoaded ts = true := by
  induction ts using TypeDef.forestInduction generalizing outer with
  | nil => simp [skipsOfTypes, TypeDef.areLoaded]
  | cons info members nested ts ihnested ihts =>
    rw [skipsOfTypes, List.append_eq_nil_iff, ihts, TypeDef.areLoaded, Bool.and_eq_true,
      TypeDef.isLoaded, skipsOfType]
    cases hload : info.unresolved with
    | some reason => simp
    | none => simp [ihnested, memberSkips_eq_nil_iff]

theorem skipsOfType_eq_nil_iff {outer : Option String} {t : TypeDef} :
    skipsOfType outer t = [] ↔ t.isLoaded = true := by
  have h : skipsOfTypes outer [t] = [] ↔ TypeDef.areLoaded [t] = true := skipsOfTypes_eq_nil_iff
  simpa [skipsOfTypes, TypeDef.areLoaded] using h

/-- A type that could be loaded with all that is in it could be loaded. -/
theorem TypeDef.isNone_of_isLoaded {t : TypeDef} (h : t.isLoaded = true) :
    t.info.unresolved.isNone = true := by
  cases t with
  | node info members nested =>
    rw [isLoaded, Bool.and_eq_true, Bool.and_eq_true] at h
    exact h.1.1

/-- The same for a module. Its outermost types are looked at twice: once for whether they are put on
the stack, and then for what is in them. -/
theorem moduleSkips_eq_nil_iff {m : Module} :
    moduleSkips m = [] ↔ ∀ t ∈ m.manifest.types, t.isLoaded = true := by
  rw [moduleSkips, List.append_eq_nil_iff, outermostSkips, List.filterMap_eq_nil_iff,
    List.flatMap_eq_nil_iff]
  refine ⟨?_, ?_⟩
  · rintro ⟨houter, hinner⟩ t ht
    have hload : t.info.unresolved = none :=
      Option.map_eq_none_iff.mp (houter t (List.mem_reverse.mpr ht))
    refine skipsOfType_eq_nil_iff.mp (hinner t (List.mem_filter.mpr ⟨ht, ?_⟩))
    rw [hload]
    rfl
  · intro h
    refine ⟨?_, ?_⟩
    · intro t ht
      have hload := TypeDef.isNone_of_isLoaded (h t (List.mem_reverse.mp ht))
      rw [Option.isNone_iff_eq_none.mp hload]
      rfl
    · intro t ht
      exact skipsOfType_eq_nil_iff.mpr (h t (List.mem_filter.mp ht).1)

/-- **Nothing is left out** exactly if everything could be loaded, at any depth: types, what is nested
in them, and members. -/
theorem ofModules_skips_eq_nil_iff {modules : List Module} :
    (SymbolTable.ofModules modules).skips = [] ↔
      ∀ m ∈ modules, ∀ t ∈ m.manifest.types, t.isLoaded = true := by
  rw [ofModules_skips, List.flatMap_eq_nil_iff]
  exact forall₂_congr fun m _ => moduleSkips_eq_nil_iff

end CilLint
