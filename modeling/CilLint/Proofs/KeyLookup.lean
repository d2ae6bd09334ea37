import CilLint.Proofs.TableShape

/-!
# Looking members up by their keys

A look-up by a key first goes to a type by its full name and then looks at the members of that type
only. Full names do not tell types apart: two modules can declare a type of the same name, and so can
one module. The look-up goes to the first of them (`SymbolTable.Leads`).

What is found is a member with the key (`mem_symbols_of_findKey?`), and its handle leads back to it
(`symbol?_handle`). But a member of a later type is *hidden* if the first one has no member with its
key, and then nothing is found. So a key is found exactly if it is in the table and not hidden, and if
no two types have the same full name, then no key is hidden.
-/

namespace CilLint

/-! ### Handles -/

/-- An element of a list is found by its key if no two of them have the same key. The search stops at
the first one, and there is no other. -/
theorem find?_eq_some_of_nodup {α β : Type} [BEq β] [LawfulBEq β] {key : α → β} {l : List α}
    (hnodup : (l.map key).Nodup) {a : α} (ha : a ∈ l) :
    (l.find? fun b => key b == key a) = some a := by
  cases hfind : l.find? fun b => key b == key a with
  | none => exact absurd (beq_self_eq_true (key a)) (List.find?_eq_none.mp hfind a ha)
  | some b =>
    have hkey : key b = key a := by simpa using List.find?_some hfind
    rw [List.inj_on_of_nodup_map hnodup (List.mem_of_find?_eq_some hfind) ha hkey]

variable {modules : List Module} {k : MemberKey} {s : Symbol}

/-- **The handle of a symbol** leads back to the symbol. The number of a type is its position in the
table, and no two members of a type have the same number. -/
theorem symbol?_handle (hs : s ∈ (SymbolTable.ofModules modules).symbols) :
    (SymbolTable.ofModules modules).symbol? s.handle = some s := by
  obtain ⟨e, he, hmem⟩ := List.mem_flatMap.mp hs
  obtain ⟨i, hi⟩ := List.mem_iff_getElem?.mp he
  have hid : (SymbolTable.ofModules modules).types[e.id]? = some e := by rwa [id_of_getElem? hi]
  -- The symbol of a type has no number of a member in its handle.
  rcases List.mem_cons.mp hmem with rfl | hmem
  · simp [SymbolTable.symbol?, Symbol.handle, hid]
  · obtain ⟨m, hm, rfl⟩ := List.mem_map.mp hmem
    have hnodup : (e.members.map MemberEntry.id).Nodup := by
      rw [members_map_id_entry hi]
      exact List.nodup_range'
    simp [SymbolTable.symbol?, Symbol.handle, hid, find?_eq_some_of_nodup hnodup hm]

/-! ### Types -/

/-- **The first type of its name** in a table. -/
structure SymbolTable.Leads (t : SymbolTable) (e : TypeEntry) : Prop where
  mem : e ∈ t.types
  first : ∀ e' ∈ t.types, e'.fullName = e.fullName → e.id ≤ e'.id

/-- What is found by a full name is the first type with it. Types are numbered as they stand in the
table, so this is the one with the least number. -/
theorem findType?_eq_some_iff {name : String} {e : TypeEntry} :
    (SymbolTable.ofModules modules).findType? name = some e ↔
      (SymbolTable.ofModules modules).Leads e ∧ e.fullName = name := by
  rw [SymbolTable.findType?, List.find?_eq_some_iff_getElem, beq_iff_eq]
  constructor
  · rintro ⟨rfl, i, hi, rfl, hbefore⟩
    refine ⟨⟨List.getElem_mem hi, ?_⟩, rfl⟩
    -- The number of a type is its position, so an earlier type of the name would have been found.
    intro e' he' hname
    obtain ⟨j, hj, rfl⟩ := List.mem_iff_getElem.mp he'
    rw [id_of_getElem? (List.getElem?_eq_getElem hi), id_of_getElem? (List.getElem?_eq_getElem hj)]
    by_contra hlt
    simpa [hname] using hbefore j (Nat.lt_of_not_le hlt)
  · rintro ⟨hleads, rfl⟩
    obtain ⟨i, hi, rfl⟩ := List.mem_iff_getElem.mp hleads.mem
    refine ⟨rfl, i, hi, rfl, ?_⟩
    intro j hj
    have hne : ((SymbolTable.ofModules modules).types[j]).fullName
        ≠ ((SymbolTable.ofModules modules).types[i]).fullName := by
      intro hname
      have hle := hleads.first _ (List.getElem_mem _) hname
      rw [id_of_getElem? (List.getElem?_eq_getElem hi),
        id_of_getElem? (List.getElem?_eq_getElem (hj.trans hi))] at hle
      omega
    simpa using hne

/-- Some type of each name that occurs is the first one. -/
theorem exists_leads {e : TypeEntry} (he : e ∈ (SymbolTable.ofModules modules).types) :
    ∃ first, (SymbolTable.ofModules modules).Leads first ∧ first.fullName = e.fullName := by
  cases hfind : (SymbolTable.ofModules modules).findType? e.fullName with
  | none => exact absurd (beq_self_eq_true e.fullName) (List.find?_eq_none.mp hfind e he)
  | some first => exact ⟨first, findType?_eq_some_iff.mp hfind⟩

/-! ### Members -/

/-- What is found by a key is a member of the type that its name leads to. -/
theorem findKey?_eq_some {t : SymbolTable} (h : t.findKey? k = some s) :
    ∃ e m, t.findType? k.declaringType = some e ∧ m ∈ e.members ∧ m.key = k ∧ s = ⟨e, some m⟩ := by
  simp only [SymbolTable.findKey?, Option.bind_eq_bind, Option.bind_eq_some_iff, Option.pure_def,
    Option.some.injEq] at h
  obtain ⟨e, he, m, hm, rfl⟩ := h
  have hkey : m.key = k := by simpa using List.find?_some hm
  exact ⟨e, m, he, List.mem_of_find?_eq_some hm, hkey, rfl⟩

/-- A member is found exactly if the first type of its name has it. Types of the same name that come
later are not looked at. -/
theorem isSome_findKey?_iff :
    ((SymbolTable.ofModules modules).findKey? k).isSome = true ↔
      ∃ e, (SymbolTable.ofModules modules).Leads e ∧ e.fullName = k.declaringType ∧
        ∃ m ∈ e.members, m.key = k := by
  constructor
  · intro hsome
    obtain ⟨s, hs⟩ := Option.isSome_iff_exists.mp hsome
    obtain ⟨e, m, he, hm, hkey, -⟩ := findKey?_eq_some hs
    obtain ⟨hleads, hname⟩ := findType?_eq_some_iff.mp he
    exact ⟨e, hleads, hname, m, hm, hkey⟩
  -- Another member with the key may come before this one, so only that something is found can be
  -- said.
  · rintro ⟨e, hleads, hname, m, hm, hkey⟩
    have htype := findType?_eq_some_iff.mpr ⟨hleads, hname⟩
    have hmember : (e.members.find? fun m => m.key == k).isSome = true :=
      List.find?_isSome.mpr ⟨m, hm, by simp [hkey]⟩
    obtain ⟨m', hm'⟩ := Option.isSome_iff_exists.mp hmember
    simp [SymbolTable.findKey?, htype, hm']

/-- What is found is a symbol of the table with the key. -/
theorem mem_symbols_of_findKey? (h : (SymbolTable.ofModules modules).findKey? k = some s) :
    s ∈ (SymbolTable.ofModules modules).symbols ∧ s.key? = some k := by
  obtain ⟨e, m, he, hm, hkey, rfl⟩ := findKey?_eq_some h
  have hmem := (findType?_eq_some_iff.mp he).1.mem
  refine ⟨List.mem_flatMap.mpr ⟨e, hmem, List.mem_cons_of_mem _ (List.mem_map_of_mem hm)⟩, ?_⟩
  rw [← hkey]
  rfl

/-- **A key is hidden** if some member of the table has it, but no member of the first type of its
type's name. -/
structure SymbolTable.Hidden (t : SymbolTable) (k : MemberKey) : Prop where
  present : ∃ m ∈ t.members, m.key = k
  missing : ∃ e, t.Leads e ∧ e.fullName = k.declaringType ∧ ∀ m ∈ e.members, m.key ≠ k

theorem not_hidden_of_isSome (h : ((SymbolTable.ofModules modules).findKey? k).isSome = true) :
    ¬ (SymbolTable.ofModules modules).Hidden k := by
  rintro ⟨-, e, hleads, hname, hnone⟩
  obtain ⟨e', hleads', hname', m, hm, hkey⟩ := isSome_findKey?_iff.mp h
  -- There is only one first type of a name.
  have hfirst := findType?_eq_some_iff.mpr ⟨hleads, hname⟩
  rw [findType?_eq_some_iff.mpr ⟨hleads', hname'⟩] at hfirst
  obtain rfl := Option.some.inj hfirst
  exact hnone m hm hkey

/-- **What is in the table is found or hidden.** The name of its type occurs in the table, so there is
a first type with it, and this one has the key or not. -/
theorem isSome_or_hidden (h : ∃ m ∈ (SymbolTable.ofModules modules).members, m.key = k) :
    ((SymbolTable.ofModules modules).findKey? k).isSome = true ∨
      (SymbolTable.ofModules modules).Hidden k := by
  obtain ⟨m, hm, hkey⟩ := h
  obtain ⟨e', he', hm'⟩ := List.mem_flatMap.mp hm
  obtain ⟨e, hleads, hname⟩ := exists_leads he'
  have hdeclaring : e.fullName = k.declaringType := by
    rw [hname, ← hkey, key_of_mem_members he' hm']
    rfl
  by_cases hfirst : ∃ m ∈ e.members, m.key = k
  · exact .inl (isSome_findKey?_iff.mpr ⟨e, hleads, hdeclaring, hfirst⟩)
  · refine .inr ⟨⟨m, hm, hkey⟩, e, hleads, hdeclaring, ?_⟩
    exact fun m' hmem heq => hfirst ⟨m', hmem, heq⟩

/-- A member that is hidden is in a second type of the same name. Without such types nothing is
hidden. -/
theorem not_hidden_of_nodup
    (h : ((SymbolTable.ofModules modules).types.map TypeEntry.fullName).Nodup) :
    ¬ (SymbolTable.ofModules modules).Hidden k := by
  rintro ⟨⟨m, hm, rfl⟩, e, hleads, hname, hnone⟩
  obtain ⟨e', he', hm'⟩ := List.mem_flatMap.mp hm
  rw [key_of_mem_members he' hm'] at hname
  -- The first type of the name is the only one, so it is the type of the member.
  obtain rfl := List.inj_on_of_nodup_map h hleads.mem he' hname
  exact hnone m hm' rfl

/-- **What it means that members can be looked up by a key:** something is found exactly if a member
has the key, and it is such a member, with a handle that leads back to it. -/
structure SymbolTable.LooksUp (t : SymbolTable) (k : MemberKey) : Prop where
  found_iff : (t.findKey? k).isSome = true ↔ ∃ m ∈ t.members, m.key = k
  key : ∀ s, t.findKey? k = some s → s.key? = some k
  handle : ∀ s, t.findKey? k = some s → t.symbol? s.handle = some s

/-- **Members can be looked up by the keys that are not hidden,** and by no others. What is found always
has the key, and its handle leads back to it. So if no two types of a table have the same full name,
then every member can be looked up by its key. -/
theorem lookup_finds_what_is_not_hidden (modules : List Module) (k : MemberKey) :
    ((SymbolTable.ofModules modules).LooksUp k ↔ ¬ (SymbolTable.ofModules modules).Hidden k) ∧
      (∀ s, (SymbolTable.ofModules modules).findKey? k = some s →
        s.key? = some k ∧ (SymbolTable.ofModules modules).symbol? s.handle = some s) ∧
      (((SymbolTable.ofModules modules).types.map TypeEntry.fullName).Nodup →
        (SymbolTable.ofModules modules).LooksUp k) := by
  have hsound : ∀ s, (SymbolTable.ofModules modules).findKey? k = some s →
      s.key? = some k ∧ (SymbolTable.ofModules modules).symbol? s.handle = some s := by
    intro s hs
    obtain ⟨hmem, hkey⟩ := mem_symbols_of_findKey? hs
    exact ⟨hkey, symbol?_handle hmem⟩
  -- What is found is always right, so the only question is whether something is found.
  have hexact : (SymbolTable.ofModules modules).LooksUp k ↔
      ¬ (SymbolTable.ofModules modules).Hidden k := by
    constructor
    · intro hlooks hhidden
      exact not_hidden_of_isSome (hlooks.found_iff.mpr hhidden.present) hhidden
    · intro hhidden
      refine ⟨⟨?_, ?_⟩, fun s hs => (hsound s hs).1, fun s hs => (hsound s hs).2⟩
      · intro hsome
        obtain ⟨e, hleads, -, m, hm, hkey⟩ := isSome_findKey?_iff.mp hsome
        exact ⟨m, List.mem_flatMap.mpr ⟨e, hleads.mem, hm⟩, hkey⟩
      · intro hpresent
        exact (isSome_or_hidden hpresent).resolve_right hhidden
  exact ⟨hexact, hsound, fun hnodup => hexact.mpr (not_hidden_of_nodup hnodup)⟩

/-! Two modules that declare a type of the same name, each with a method of its own. -/

/-- A module with one type, which has one method. -/
def playerModule (name method : String) : Module :=
  .ofManifest
    { name
      types := [.node { name := "Player", nameSpace := "Game" }
        [{ name := method, kind := .method }] []] }

/-- The type has the same full name in both modules. -/
def playerModules : List Module := [playerModule "Game" "Tick", playerModule "Game.Ui" "Draw"]

/-- **The method of the second module is not found,** although it is in the table. -/
theorem second_player_is_hidden :
    (SymbolTable.ofModules playerModules).findKey? ⟨"Game.Player", "Draw", []⟩ = none ∧
      ¬ (SymbolTable.ofModules playerModules).LooksUp ⟨"Game.Player", "Draw", []⟩ := by
  have htypes := ofModules_types playerModules
  have hnone : (SymbolTable.ofModules playerModules).findKey? ⟨"Game.Player", "Draw", []⟩ = none := by
    rw [SymbolTable.findKey?, SymbolTable.findType?, htypes]
    rfl
  have hpresent : ∃ m ∈ (SymbolTable.ofModules playerModules).members,
      m.key = ⟨"Game.Player", "Draw", []⟩ := by
    rw [SymbolTable.members, htypes]
    decide +kernel
  refine ⟨hnone, fun hlooks => ?_⟩
  have hsome := hlooks.found_iff.mpr hpresent
  rw [hnone] at hsome
  exact absurd hsome (by simp)

end CilLint
