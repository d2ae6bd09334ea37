import CilLint.Proofs.Growth
import CilLint.Proofs.Provenance
import CilLint.Proofs.Resolution

/-!
# Properties whose getters are called

A property has no body of its own. It counts as read if its getter is called, and the getter is looked
up by the type of the property and a name. The index knows members by their parameters as well, and
the look-up asks for the member without any (`MemberEntry.getterKey`).

`IsDeadProperty` says from the bytes on which properties are reported: nothing is unknown about calls,
and no other body calls the getter without parameters. So a call of a getter that has no parameters
keeps the property from being reported (`getter_calls_keep_properties`). A call of a getter with
parameters, such as that of an indexer, does not (`indexed_property_reported`).
-/

namespace CilLint

/-- The key under which calls of the getter of a property are looked up. -/
def MemberEntry.getterKey (p : MemberEntry) : MemberKey :=
  ⟨p.key.declaringType, p.member.getterName, []⟩

/-- **A property is dead** if it is one that could be called dead at all, nothing is unknown about
calls, and no other body calls its getter without parameters. -/
structure IsDeadProperty (t : SymbolTable) (s : Symbol) : Prop where
  isProperty : s.kind = .property
  notIgnored : s.isIgnored = false
  notExcluded : exclusion? s = none
  complete : t.skips = []
  decoded : ∀ b ∈ t.bodies, (decode b.bytes).error = none
  resolved : ∀ u ∈ t.uses, u.code ∈ Access.call.codes → u.target ≠ none
  /-- Bodies of other members do not call the getter. -/
  unread : ∀ p ∈ s.entry, ∀ u ∈ t.uses, u.code ∈ Access.call.codes → u.owner ≠ p.getterKey →
    u.target ≠ some p.getterKey

variable {t : SymbolTable} {s : Symbol}

/-- **The rule on properties finds the dead properties.** What the index says of the getter is on the
left, and on the right there are only the bodies of the table. -/
theorem isDeadProperty_iff :
    (!s.isIgnored && (ReferenceIndex.ofTable t).isUnusedProperty s) = true ↔
      IsDeadProperty t s := by
  have hexact := ReferenceIndex.exact_ofTable t
  cases hentry : s.entry with
  -- A type is no property.
  | none =>
    have hkind := kind_of_entry_eq_none hentry
    refine ⟨?_, ?_⟩
    · intro h
      simp [ReferenceIndex.isUnusedProperty, hkind] at h
    · intro h
      simp [h.isProperty] at hkind
  -- The index is asked for the getter, and its answer is exact.
  | some p =>
    have hread : (ReferenceIndex.ofTable t).isPropertyRead p.key p.member.getterName
        = (ReferenceIndex.ofTable t).isCalled p.getterKey := rfl
    simp only [ReferenceIndex.isUnusedProperty, hentry, Option.any_some, hread, Bool.and_eq_true,
      Bool.not_eq_true', beq_iff_eq, Option.isNone_iff_eq_none, hexact.isCalled_eq_false_iff]
    refine ⟨?_, ?_⟩
    · rintro ⟨hignored, ⟨hkind, hexcluded⟩, hcomplete, hdecoded, hresolved, hunread⟩
      refine ⟨hkind, hignored, hexcluded, hcomplete, hdecoded, hresolved, ?_⟩
      simpa [hentry] using hunread
    · intro h
      exact ⟨h.notIgnored, ⟨h.isProperty, h.notExcluded⟩, h.complete, h.decoded, h.resolved,
        h.unread p hentry⟩

/-- A call of the getter by another body keeps a property alive. A call by the getter itself does not
count, as for methods. -/
theorem not_isDeadProperty_of_call {p : MemberEntry} (hp : s.entry = some p) {u : Use}
    (hu : u ∈ t.uses) (hcall : u.code ∈ Access.call.codes) (howner : u.owner ≠ p.getterKey)
    (htarget : u.target = some p.getterKey) : ¬ IsDeadProperty t s := by
  intro hdead
  exact hdead.unread p hp u hu hcall howner htarget

/-- A getter without parameters has the key under which it is looked up. Both are members of one type,
so the name of the type is the same, and the parameters are what could differ. -/
theorem key_eq_getterKey {modules : List Module} {e : TypeEntry}
    (he : e ∈ (SymbolTable.ofModules modules).types) {p g : MemberEntry} (hp : p ∈ e.members)
    (hg : g ∈ e.members) (hname : g.member.name = p.member.getterName)
    (hparameters : g.member.parameters = []) : g.key = p.getterKey := by
  rw [key_of_mem_members he hg, MemberEntry.getterKey, key_of_mem_members he hp, Member.key,
    Member.key, hname, hparameters]

/-! ### Reports -/

/-- Whether a violation of the rule on properties in the report on a table is about a symbol. -/
def Validator.ReportsProperty (v : Validator) (t : SymbolTable) (s : Symbol) : Prop :=
  ∃ f ∈ v.reported t, f.symbol = s ∧ f.rule.id = "unused-property"

/-- **Verdicts on properties are exact.** Whatever is registered after the built-in rules does not get
the id of this rule, so a finding with the id is one of this rule. -/
theorem reportsProperty_iff {v : Validator} {custom : List Rule}
    (hregistry : v.registry = (Registry.builtin.registerAll custom).2) (hs : s ∈ t.symbols) :
    v.ReportsProperty t s ↔
      v.eligible s.module.name = true ∧ "unused-property" ∉ v.disabled ∧ IsDeadProperty t s := by
  have hnodup := Validator.nodup_ids_of_builtin hregistry
  have hbuiltin : Rule.unusedProperty ∈ v.registry.rules :=
    Validator.mem_rules_of_builtin hregistry (by simp [Rule.builtin])
  unfold Validator.ReportsProperty
  simp only [(v.perm_reported t).mem_iff, Validator.mem_findings]
  refine ⟨?_, ?_⟩
  · rintro ⟨⟨_, r, message⟩, ⟨-, hlooks, hactive, -, hfound⟩, rfl, hid⟩
    obtain ⟨hr, henabled⟩ := List.mem_filter.mp hactive
    -- No other rule has the id.
    obtain rfl : r = Rule.unusedProperty := List.inj_on_of_nodup_map hnodup hr hbuiltin hid
    have hunused := Verdict.of_ite_eq_found hfound
    unfold Validator.looksAt at hlooks
    rw [Bool.and_eq_true, Bool.and_eq_true] at hlooks
    have hid : "unused-property" ∉ v.disabled := by simpa [Rule.unusedProperty] using henabled
    refine ⟨hlooks.1.2, hid, isDeadProperty_iff.mp ?_⟩
    rw [hlooks.2]
    exact hunused
  -- What is dead is not excluded, so the compiler did not make its type and the pass looks at it.
  · rintro ⟨heligible, henabled, hdead⟩
    have hunused := (Bool.and_eq_true_iff.mp (isDeadProperty_iff.mpr hdead)).2
    have hgenerated : s.declaringType.info.isCompilerGenerated = false :=
      isGenerated_of_exclusion? (by simp [hdead.isProperty]) hdead.notExcluded
    refine ⟨⟨s, .unusedProperty, "Property is never read"⟩, ⟨hs, ?_, ?_, ?_, if_pos hunused⟩, rfl,
      rfl⟩
    · rw [Validator.looksAt, hgenerated, heligible, hdead.notIgnored]
      rfl
    · refine List.mem_filter.mpr ⟨hbuiltin, ?_⟩
      simpa [Rule.unusedProperty] using henabled
    · rw [hdead.isProperty]
      rfl

/-- **Calls of getters without parameters keep properties from being reported.** If the built-in rules
are registered, whatever is registered after them, then in every report on some modules the
properties with a violation are the dead ones of eligible modules, unless the rule is left out. A
property is not among them if some other body calls a member of its type that has the name of its
getter and no parameters. -/
theorem getter_calls_keep_properties (v : Validator) (custom : List Rule)
    (hregistry : v.registry = (Registry.builtin.registerAll custom).2) (modules : List Module) :
    let t := SymbolTable.ofModules modules
    (v.validate t).violations = (v.reported t).map (Finding.violation v.weights) ∧
      (∀ s ∈ t.symbols, v.ReportsProperty t s ↔
        v.eligible s.module.name = true ∧ "unused-property" ∉ v.disabled ∧ IsDeadProperty t s) ∧
      ∀ e ∈ t.types, ∀ p ∈ e.members, ∀ g ∈ e.members,
        p.member.kind = .property → g.member.name = p.member.getterName →
        g.member.parameters = [] →
        ∀ u ∈ t.uses, u.code ∈ Access.call.codes → u.owner ≠ g.key → u.target = some g.key →
          ¬ v.ReportsProperty t ⟨e, some p⟩ := by
  intro t
  refine ⟨v.violations_validate t, fun s hs => reportsProperty_iff hregistry hs, ?_⟩
  intro e he p hp g hg _ hname hparameters u hu hcall howner htarget hreported
  -- The call is one of the getter that is looked up, so the property is not dead.
  have hkey : g.key = p.getterKey := key_eq_getterKey he hp hg hname hparameters
  have hs : (⟨e, some p⟩ : Symbol) ∈ t.symbols :=
    List.mem_flatMap.mpr ⟨e, he, List.mem_cons_of_mem _ (List.mem_map_of_mem hp)⟩
  have hdead := ((reportsProperty_iff hregistry hs).mp hreported).2.2
  rw [hkey] at howner htarget
  exact not_isDeadProperty_of_call rfl hu hcall howner htarget hdead

/-! A property, its getter with some parameters, and a method that calls the getter. -/

section Grid

variable (parameters : List String)

/-- The property, -/
def itemProperty : MemberEntry where
  id := 0
  type := 0
  member := { name := "Item", kind := .property, token := ⟨0x17000001⟩ }
  key := ⟨"Game.Grid", "Item", []⟩
  isIgnored := false

/-- its getter, -/
def itemGetter : MemberEntry where
  id := 1
  type := 0
  member := { name := "get_Item", kind := .method, token := ⟨0x06000003⟩, parameters }
  key := ⟨"Game.Grid", "get_Item", parameters⟩
  isIgnored := false

/-- and a method that calls the getter and drops what it returns. -/
def itemReader : MemberEntry where
  id := 2
  type := 0
  member :=
    { name := "Draw", kind := .method, token := ⟨0x06000004⟩, flags := { isPublic := true }
      body := some [0x28, 3, 0, 0, 6, 0x26, 0x2A] }
  key := ⟨"Game.Grid", "Draw", []⟩
  isIgnored := false

/-- All three are in one type. -/
def gridManifest : Manifest where
  name := "Game"
  types := [.node { name := "Grid", nameSpace := "Game" }
    [itemProperty.member, (itemGetter parameters).member, itemReader.member] []]

/-- The module with the type. -/
def gridModule : Module := .ofManifest (gridManifest parameters)

/-- The entry of the type. -/
def gridType : TypeEntry where
  id := 0
  module := gridModule parameters
  parent := none
  fullName := "Game.Grid"
  info := { name := "Grid", nameSpace := "Game" }
  nested := []
  isIgnored := false
  members := [itemProperty, itemGetter parameters, itemReader]

theorem types_grid :
    (SymbolTable.ofModules [gridModule parameters]).types = [gridType parameters] := by
  rw [ofModules_types]
  rfl

theorem bodies_grid :
    (SymbolTable.ofModules [gridModule parameters]).bodies
      = [⟨gridModule parameters, itemReader.key, [0x28, 3, 0, 0, 6, 0x26, 0x2A]⟩] := by
  rw [SymbolTable.bodies, types_grid]
  rfl

theorem decode_itemReader :
    decode [0x28, 3, 0, 0, 6, 0x26, 0x2A]
      = ⟨[⟨0, ⟨0x28, "call", .token, .call⟩, .token ⟨0x06000003⟩, 5⟩,
          ⟨5, ⟨0x26, "pop", .none, .next⟩, .none, 6⟩,
          ⟨6, ⟨0x2A, "ret", .none, .leave⟩, .none, 7⟩], none⟩ := by cbv

/-- The only use is the call of the getter. -/
theorem uses_grid :
    (SymbolTable.ofModules [gridModule parameters]).uses
      = [⟨itemReader.key, 0x28, some (itemGetter parameters).key⟩] := by
  have hresolve : (gridModule parameters).resolve? ⟨0x06000003⟩
      = some (itemGetter parameters).key := by
    -- The getter is the only member with this token, and there are no references.
    have hdeclared : ⟨[{ name := "Grid", nameSpace := "Game" }], (itemGetter parameters).member⟩
        ∈ (gridManifest parameters).declarations := List.mem_cons_of_mem _ List.mem_cons_self
    have hnil : Token.isNil ⟨0x06000003⟩ = false := by decide
    exact (resolves_ofManifest (gridManifest parameters)).only _ hdeclared
      (fun _ => by simp [gridManifest]) hnil rfl
  rw [SymbolTable.uses, bodies_grid, List.flatMap_singleton, Body.uses, decode_itemReader, ← hresolve]
  rfl

end Grid

/-- The property of `gridModule` is not reported if its getter has no parameters. -/
theorem property_grid_kept :
    ¬ Validator.ReportsProperty {} (.ofModules [gridModule []]) ⟨gridType [], some itemProperty⟩ := by
  refine (getter_calls_keep_properties {} [] rfl [gridModule []]).2.2 (gridType []) ?_
    itemProperty (by simp [gridType]) (itemGetter []) (by simp [gridType]) rfl (by decide) rfl
    ⟨itemReader.key, 0x28, some (itemGetter []).key⟩ ?_ (by decide) (by decide) rfl
  · simp [types_grid]
  · rw [uses_grid]
    exact List.mem_singleton_self _

/-- The property of `gridModule` is dead if its getter has a parameter: the call names the getter with
its parameter, and that is not what is looked up. -/
theorem isDeadProperty_grid :
    IsDeadProperty (.ofModules [gridModule ["System.Int32"]])
      ⟨gridType ["System.Int32"], some itemProperty⟩ := by
  constructor
  case isProperty => rfl
  case notIgnored => rfl
  case notExcluded => decide +kernel
  case complete =>
    rw [ofModules_skips]
    rfl
  case decoded => rw [bodies_grid, List.forall_mem_singleton, decode_itemReader]
  case resolved =>
    rw [uses_grid, List.forall_mem_singleton]
    decide
  -- The one call there is has the parameter in its target.
  case unread =>
    intro p hentry
    obtain rfl := Option.some.inj hentry
    rw [uses_grid, List.forall_mem_singleton]
    decide

/-- **A property is reported although its getter is called,** if the getter has a parameter. All that
`getter_calls_keep_properties` asks for is true here, except that the getter has no parameters. -/
theorem indexed_property_reported :
    let t := SymbolTable.ofModules [gridModule ["System.Int32"]]
    let e := gridType ["System.Int32"]
    let g := itemGetter ["System.Int32"]
    (e ∈ t.types ∧ itemProperty ∈ e.members ∧ g ∈ e.members ∧
      itemProperty.member.kind = .property ∧ g.member.name = itemProperty.member.getterName) ∧
      (∃ u ∈ t.uses, u.code ∈ Access.call.codes ∧ u.owner ≠ g.key ∧ u.target = some g.key) ∧
      Validator.ReportsProperty {} t ⟨e, some itemProperty⟩ ∧
      ∃ x ∈ (Validator.validate {} t).violations,
        x.rule = "unused-property" ∧ x.declaringType = "Game.Grid" ∧ x.member = "Item" := by
  intro t e g
  have huses : t.uses = [⟨itemReader.key, 0x28, some g.key⟩] := uses_grid _
  have htypes : t.types = [e] := types_grid _
  have he : e ∈ t.types := htypes ▸ List.mem_singleton_self e
  have hp : itemProperty ∈ e.members := List.mem_cons_self
  have hg : g ∈ e.members := List.mem_cons_of_mem _ List.mem_cons_self
  have hs : (⟨e, some itemProperty⟩ : Symbol) ∈ t.symbols :=
    List.mem_flatMap.mpr ⟨e, he, List.mem_cons_of_mem _ (List.mem_map_of_mem hp)⟩
  have hregistry : ({} : Validator).registry = (Registry.builtin.registerAll []).2 := rfl
  have hreported : Validator.ReportsProperty {} t ⟨e, some itemProperty⟩ :=
    (reportsProperty_iff hregistry hs).mpr ⟨rfl, by decide, isDeadProperty_grid⟩
  refine ⟨⟨he, hp, hg, rfl, by decide⟩, ⟨_, huses ▸ List.mem_singleton_self _, by decide, by decide,
    rfl⟩, hreported, ?_⟩
  -- The violation of the finding is the one in the report.
  obtain ⟨f, hf, hsymbol, hid⟩ := hreported
  refine ⟨f.violation .standard, ?_, hid, ?_, ?_⟩
  · rw [Validator.violations_validate]
    exact List.mem_map_of_mem hf
  · rw [Finding.violation, hsymbol]
    rfl
  · rw [Finding.violation, hsymbol]
    rfl

end CilLint
