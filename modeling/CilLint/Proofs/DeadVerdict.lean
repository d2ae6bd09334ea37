import CilLint.Proofs.Pass
import CilLint.Proofs.Schedule
import CilLint.Proofs.TableShape

/-!
# Dead members are exactly the ones reported

A report calls a method or a field dead if nothing in the bytecode of any module can use it. Here
this is said from the bytes on, with no index and no pass: `IsDeadMethod` and `IsDeadField` look at
the uses in the bodies of a table. The report agrees with them for the following reasons.

* The index of a table is exact (`ReferenceIndex.exact_ofTable`), so a member counts as unused
  exactly if nothing is unknown and no use names it (`Exact.isCalled_eq_false_iff`,
  `Exact.isRead_eq_false_iff`).
* Up to order, the violations of a rule are its findings on the eligible symbols
  (`Validator.perm_violations_of_finding`). A symbol in a type that the compiler made is not
  eligible, but it is also excluded from being dead, so none is lost (`isGenerated_of_exclusion?`).
-/

namespace CilLint

/-! ### Dead members of a table -/

/-- **A method is dead** if it is one that could be called dead at all, nothing is unknown about
calls, and no other body calls it. -/
structure IsDeadMethod (t : SymbolTable) (s : Symbol) : Prop where
  isMethod : s.kind = .method
  notIgnored : s.isIgnored = false
  notSpecial : ∀ m ∈ s.member?, m.flags.hasSpecialName = false
  notExcluded : exclusion? s = none
  /-- Nothing was left out of the table, -/
  complete : t.skips = []
  /-- all bodies can be decoded to their ends, -/
  decoded : ∀ b ∈ t.bodies, (decode b.bytes).error = none
  /-- and what is called is known. -/
  resolved : ∀ u ∈ t.uses, u.code ∈ Access.call.codes → u.target ≠ none
  /-- Bodies of other members do not call the method. -/
  uncalled : ∀ u ∈ t.uses, u.code ∈ Access.call.codes → some u.owner ≠ s.key? → u.target ≠ s.key?

/-- **A field is dead** if it is one that could be called dead at all, nothing is unknown about
fields, and no body loads it. -/
structure IsDeadField (t : SymbolTable) (s : Symbol) : Prop where
  isField : s.kind = .field
  notIgnored : s.isIgnored = false
  notExcluded : exclusion? s = none
  complete : t.skips = []
  decoded : ∀ b ∈ t.bodies, (decode b.bytes).error = none
  /-- What is loaded or stored is known. -/
  resolved : ∀ u ∈ t.uses,
    u.code ∈ Access.load.codes ∨ u.code ∈ Access.store.codes → u.target ≠ none
  /-- Bodies do not load the field. Storing it makes no difference. -/
  unread : ∀ u ∈ t.uses, u.code ∈ Access.load.codes → u.target ≠ s.key?

instance (t : SymbolTable) (s : Symbol) : Decidable (IsDeadMethod t s) :=
  decidable_of_iff
    (s.kind = .method ∧ s.isIgnored = false ∧ (∀ m ∈ s.member?, m.flags.hasSpecialName = false) ∧
      exclusion? s = none ∧ t.skips = [] ∧ (∀ b ∈ t.bodies, (decode b.bytes).error = none) ∧
      (∀ u ∈ t.uses, u.code ∈ Access.call.codes → u.target ≠ none) ∧
      ∀ u ∈ t.uses, u.code ∈ Access.call.codes → some u.owner ≠ s.key? → u.target ≠ s.key?)
    ⟨fun ⟨h₁, h₂, h₃, h₄, h₅, h₆, h₇, h₈⟩ => ⟨h₁, h₂, h₃, h₄, h₅, h₆, h₇, h₈⟩,
      fun ⟨h₁, h₂, h₃, h₄, h₅, h₆, h₇, h₈⟩ => ⟨h₁, h₂, h₃, h₄, h₅, h₆, h₇, h₈⟩⟩

instance (t : SymbolTable) (s : Symbol) : Decidable (IsDeadField t s) :=
  decidable_of_iff
    (s.kind = .field ∧ s.isIgnored = false ∧ exclusion? s = none ∧ t.skips = [] ∧
      (∀ b ∈ t.bodies, (decode b.bytes).error = none) ∧
      (∀ u ∈ t.uses, u.code ∈ Access.load.codes ∨ u.code ∈ Access.store.codes → u.target ≠ none) ∧
      ∀ u ∈ t.uses, u.code ∈ Access.load.codes → u.target ≠ s.key?)
    ⟨fun ⟨h₁, h₂, h₃, h₄, h₅, h₆, h₇⟩ => ⟨h₁, h₂, h₃, h₄, h₅, h₆, h₇⟩,
      fun ⟨h₁, h₂, h₃, h₄, h₅, h₆, h₇⟩ => ⟨h₁, h₂, h₃, h₄, h₅, h₆, h₇⟩⟩

/-- What is said about a dead field. -/
def deadFieldMessage (t : SymbolTable) (s : Symbol) : String :=
  if ∃ u ∈ t.uses, u.code ∈ Access.store.codes ∧ u.target = s.key? then
    "Field is assigned but never read"
  else "Field is never read or written"

/-! ### Answers of exact indexes -/

namespace ReferenceIndex.Exact

variable {index : ReferenceIndex} {t : SymbolTable}

/-- An exact index says that a member is not called exactly if nothing is unknown about calls and no
other body calls it. Whatever is unknown counts as a call: something that was left out of the table, a
body that does not decode to its end, or a call of something that is not known. -/
theorem isCalled_eq_false_iff (h : index.Exact t) {k : MemberKey} :
    index.isCalled k = false ↔
      t.skips = [] ∧ (∀ b ∈ t.bodies, (decode b.bytes).error = none) ∧
        (∀ u ∈ t.uses, u.code ∈ Access.call.codes → u.target ≠ none) ∧
        ∀ u ∈ t.uses, u.code ∈ Access.call.codes → u.owner ≠ k → u.target ≠ some k := by
  rw [← Bool.not_eq_true, isCalled_iff, h.callsDegraded]
  simp only [h.callersOf]
  -- Both sides say the same; what is left is to push the negation inwards.
  grind

/-- The same for loads of fields. Stores of what is not known count as well, since they make the index
unsure of all fields. -/
theorem isRead_eq_false_iff (h : index.Exact t) {k : MemberKey} :
    index.isRead k = false ↔
      t.skips = [] ∧ (∀ b ∈ t.bodies, (decode b.bytes).error = none) ∧
        (∀ u ∈ t.uses, u.code ∈ Access.load.codes ∨ u.code ∈ Access.store.codes → u.target ≠ none) ∧
        ∀ u ∈ t.uses, u.code ∈ Access.load.codes → u.target ≠ some k := by
  rw [← Bool.not_eq_true, isRead, Bool.or_eq_true, h.fieldsDegraded, Std.HashMap.contains_iff_mem,
    h.reads]
  grind

end ReferenceIndex.Exact

/-! ### Findings of the rules -/

variable {t : SymbolTable} {s : Symbol}

/-- A symbol is a type or a member, and the members are the ones with an entry. -/
theorem kind_of_entry_eq_none (h : s.entry = none) : s.kind = .type := by
  rw [Symbol.kind, h]

theorem key?_of_entry_eq_some {e : MemberEntry} (h : s.entry = some e) : s.key? = some e.key := by
  rw [Symbol.key?, h, Option.map_some]

theorem exists_entry_of_kind (h : s.kind ≠ .type) : ∃ e, s.entry = some e := by
  cases hentry : s.entry with
  | none => exact absurd (kind_of_entry_eq_none hentry) h
  | some e => exact ⟨e, rfl⟩

/-- A member that is not excluded is in no type that the compiler made. -/
theorem isGenerated_of_exclusion? (hkind : s.kind ≠ .type) (h : exclusion? s = none) :
    s.declaringType.info.isCompilerGenerated = false := by
  obtain ⟨e, hentry⟩ := exists_entry_of_kind hkind
  rw [exclusion?, Symbol.member?, hentry, Option.map_some, Option.bind_some, memberExclusion?] at h
  -- The tests for exclusion are made one after another, and the one on the compiler is the second.
  split_ifs at h with _ hgenerated
  -- In every branch that is left the second test has failed.
  all_goals
    rw [isGeneratedMember] at hgenerated
    simp only [Bool.or_eq_true, not_or, Bool.not_eq_true] at hgenerated
    exact hgenerated.1.2

/-- **The rule on methods finds the dead methods.** On the left there is what the index says, on the
right there are only the bodies of the table. -/
theorem isDeadMethod_iff :
    (!s.isIgnored && (ReferenceIndex.ofTable t).isUnusedMethod s) = true ↔ IsDeadMethod t s := by
  have hexact := ReferenceIndex.exact_ofTable t
  cases hentry : s.entry with
  -- A type is no method, so neither side holds.
  | none =>
    have hkind := kind_of_entry_eq_none hentry
    refine ⟨?_, ?_⟩
    · intro h
      simp [ReferenceIndex.isUnusedMethod, hkind] at h
    · intro h
      simp [h.isMethod] at hkind
  | some e =>
    have hkey := key?_of_entry_eq_some hentry
    have hmember : s.member? = some e.member := by rw [Symbol.member?, hentry]; rfl
    simp only [ReferenceIndex.isUnusedMethod, hkey, hmember, Option.any_some, Bool.and_eq_true,
      Bool.not_eq_true', beq_iff_eq, Option.isNone_iff_eq_none, hexact.isCalled_eq_false_iff]
    refine ⟨?_, ?_⟩
    · rintro ⟨hignored, ⟨⟨hkind, hspecial⟩, hexcluded⟩, hcomplete, hdecoded, hresolved, huncalled⟩
      refine ⟨hkind, hignored, ?_, hexcluded, hcomplete, hdecoded, hresolved, ?_⟩
      · simpa [hmember] using hspecial
      · simpa [hkey] using huncalled
    · intro h
      refine ⟨h.notIgnored, ⟨⟨h.isMethod, h.notSpecial _ hmember⟩, h.notExcluded⟩, h.complete,
        h.decoded, h.resolved, ?_⟩
      simpa [hkey] using h.uncalled

/-- **The rule on fields finds the dead fields.** -/
theorem isDeadField_iff :
    (!s.isIgnored && (ReferenceIndex.ofTable t).isUnusedField s) = true ↔ IsDeadField t s := by
  have hexact := ReferenceIndex.exact_ofTable t
  cases hentry : s.entry with
  -- A type is no field.
  | none =>
    have hkind := kind_of_entry_eq_none hentry
    refine ⟨?_, ?_⟩
    · intro h
      simp [ReferenceIndex.isUnusedField, hkind] at h
    · intro h
      simp [h.isField] at hkind
  | some e =>
    have hkey := key?_of_entry_eq_some hentry
    simp only [ReferenceIndex.isUnusedField, hkey, Option.any_some, Bool.and_eq_true,
      Bool.not_eq_true', beq_iff_eq, Option.isNone_iff_eq_none, hexact.isRead_eq_false_iff]
    refine ⟨?_, ?_⟩
    · rintro ⟨hignored, ⟨hkind, hexcluded⟩, hcomplete, hdecoded, hresolved, hunread⟩
      refine ⟨hkind, hignored, hexcluded, hcomplete, hdecoded, hresolved, ?_⟩
      simpa [hkey] using hunread
    · intro h
      exact ⟨h.notIgnored, ⟨h.isField, h.notExcluded⟩, h.complete, h.decoded, h.resolved,
        by simpa [hkey] using h.unread⟩

/-- A dead field is said to be assigned exactly if some body stores it. -/
theorem message_of_isDeadField (h : IsDeadField t s) :
    (if s.key?.any (ReferenceIndex.ofTable t).isWritten then "Field is assigned but never read"
      else "Field is never read or written") = deadFieldMessage t s := by
  have hexact := ReferenceIndex.exact_ofTable t
  obtain ⟨e, hentry⟩ := exists_entry_of_kind (s := s) (by simp [h.isField])
  have hkey := key?_of_entry_eq_some hentry
  -- For a dead field nothing is unknown, so the answer about writes is exact.
  have hknown : (ReferenceIndex.ofTable t).fieldsDegraded = false := by
    rw [← Bool.not_eq_true, hexact.fieldsDegraded]
    rintro (hskips | ⟨b, hb, herror⟩ | ⟨u, hu, hcode, htarget⟩)
    · exact hskips h.complete
    · exact herror (h.decoded b hb)
    · exact h.resolved u hu hcode htarget
  rw [deadFieldMessage, hkey]
  refine if_congr ?_ rfl rfl
  rw [Option.any_some, ReferenceIndex.isWritten, hknown, Bool.false_or,
    Std.HashMap.contains_iff_mem, hexact.writes]

/-! ### Reports -/

section Reports

variable {v : Validator}

/-- **The violations of the rule on methods, up to order.** All that is asked of the other rules is
that they have other ids. -/
theorem perm_violations_unusedMethod (hnodup : (v.activeRules.map Rule.id).Nodup)
    (hrule : Rule.unusedMethod ∈ v.activeRules) (heligible : ∀ name, v.eligible name = true)
    (t : SymbolTable) :
    ((v.validate t).violations.filter fun x => x.rule == "unused-method").Perm
      ((t.symbols.filter fun s => IsDeadMethod t s).map fun s =>
        Validator.violation v.weights s "unused-method" "Method is never called") := by
  -- What the rule finds is a method and not excluded, so the pass looks at it.
  have hmember : ∀ s, (ReferenceIndex.ofTable t).isUnusedMethod s = true →
      s.kind = .method ∧ exclusion? s = none := by
    intro s h
    simp only [ReferenceIndex.isUnusedMethod, Bool.and_eq_true, beq_iff_eq,
      Option.isNone_iff_eq_none] at h
    exact ⟨h.1.1.1, h.1.2⟩
  have hperm := Validator.perm_violations_of_finding t hnodup hrule heligible
    (p := (ReferenceIndex.ofTable t).isUnusedMethod)
    (fun s => Validator.violationsOf_eq rfl fun h => by rw [(hmember s h).1]; rfl)
    (fun s h => isGenerated_of_exclusion? (by simp [(hmember s h).1]) (hmember s h).2)
  refine hperm.trans (.of_eq ?_)
  congr 1
  exact List.filter_congr fun s _ => Bool.eq_iff_iff.mpr (by simpa using isDeadMethod_iff)

/-- **The violations of the rule on fields, up to order.** They have one of two messages, so those
have to be compared as well. -/
theorem perm_violations_unusedField (hnodup : (v.activeRules.map Rule.id).Nodup)
    (hrule : Rule.unusedField ∈ v.activeRules) (heligible : ∀ name, v.eligible name = true)
    (t : SymbolTable) :
    ((v.validate t).violations.filter fun x => x.rule == "unused-field").Perm
      ((t.symbols.filter fun s => IsDeadField t s).map fun s =>
        Validator.violation v.weights s "unused-field" (deadFieldMessage t s)) := by
  -- As for methods, what the rule finds is not excluded.
  have hmember : ∀ s, (ReferenceIndex.ofTable t).isUnusedField s = true →
      s.kind = .field ∧ exclusion? s = none := by
    intro s h
    simp only [ReferenceIndex.isUnusedField, Bool.and_eq_true, beq_iff_eq,
      Option.isNone_iff_eq_none] at h
    exact ⟨h.1.1, h.1.2⟩
  have hperm := Validator.perm_violations_of_finding t hnodup hrule heligible
    (p := (ReferenceIndex.ofTable t).isUnusedField)
    (fun s => Validator.violationsOf_eq rfl fun h => by rw [(hmember s h).1]; rfl)
    (fun s h => isGenerated_of_exclusion? (by simp [(hmember s h).1]) (hmember s h).2)
  have hfilter : (t.symbols.filter fun s =>
        !s.isIgnored && (ReferenceIndex.ofTable t).isUnusedField s)
      = t.symbols.filter fun s => IsDeadField t s :=
    List.filter_congr fun s _ => Bool.eq_iff_iff.mpr (by simpa using isDeadField_iff)
  rw [hfilter] at hperm
  refine hperm.trans (.of_eq (List.map_congr_left fun s hs => ?_))
  have hdead : IsDeadField t s := by simpa using (List.mem_filter.mp hs).2
  rw [← message_of_isDeadField hdead]
  rfl

end Reports

/-- **Verdicts on dead members are exact.** If no two active rules have the same id, the rules on
methods and fields are active, and all modules are eligible, then the report on some modules has one
violation for each dead method and one for each dead field, and no other violations of the two rules.
Every member is looked at once, and nothing is left out of the table exactly if all that the modules
declare could be loaded.

With the built-in rules, and whatever is registered after them, the ids are different
(`Validator.nodup_ids_of_builtin`) and the two rules are active unless they are left out. -/
theorem dead_verdicts_exact (v : Validator) (hnodup : (v.activeRules.map Rule.id).Nodup)
    (hmethod : Rule.unusedMethod ∈ v.activeRules) (hfield : Rule.unusedField ∈ v.activeRules)
    (heligible : ∀ name, v.eligible name = true) (modules : List Module) :
    let t := SymbolTable.ofModules modules
    ((v.validate t).violations.filter fun x => x.rule == "unused-method").Perm
        ((t.symbols.filter fun s => IsDeadMethod t s).map fun s =>
          Validator.violation v.weights s "unused-method" "Method is never called") ∧
      ((v.validate t).violations.filter fun x => x.rule == "unused-field").Perm
        ((t.symbols.filter fun s => IsDeadField t s).map fun s =>
          Validator.violation v.weights s "unused-field" (deadFieldMessage t s)) ∧
      (t.symbols.map Symbol.handle).Nodup ∧
      (t.skips = [] ↔ ∀ m ∈ modules, ∀ u ∈ m.manifest.types, u.isLoaded = true) := by
  intro t
  exact ⟨perm_violations_unusedMethod hnodup hmethod heligible t,
    perm_violations_unusedField hnodup hfield heligible t, nodup_handles modules,
    ofModules_skips_eq_nil_iff⟩

/-! A method that nobody but itself calls. -/

/-- The method, whose body calls itself and returns. -/
def selfCaller : MemberEntry where
  id := 0
  type := 0
  member :=
    { name := "Spin", kind := .method, token := ⟨0x06000001⟩
      body := some [0x28, 1, 0, 0, 6, 0x2A] }
  key := ⟨"Game.Loop", "Spin", []⟩
  isIgnored := false

/-- A module with the method in a class. -/
def selfCallerModule : Module :=
  .ofManifest
    { name := "Game"
      types := [.node { name := "Loop", nameSpace := "Game" } [selfCaller.member] []] }

/-- The class, as the table has it. -/
def selfCallerType : TypeEntry where
  id := 0
  module := selfCallerModule
  parent := none
  fullName := "Game.Loop"
  info := { name := "Loop", nameSpace := "Game" }
  nested := []
  isIgnored := false
  members := [selfCaller]

theorem types_selfCaller :
    (SymbolTable.ofModules [selfCallerModule]).types = [selfCallerType] := by
  rw [ofModules_types]
  rfl

/-- **The method is dead.** The only call in the table is its own. -/
theorem isDeadMethod_selfCaller :
    IsDeadMethod (SymbolTable.ofModules [selfCallerModule]) ⟨selfCallerType, some selfCaller⟩ := by
  have hbodies : (SymbolTable.ofModules [selfCallerModule]).bodies
      = [⟨selfCallerModule, selfCaller.key, [0x28, 1, 0, 0, 6, 0x2A]⟩] := by
    rw [SymbolTable.bodies, types_selfCaller]
    rfl
  have hdecode : decode [0x28, 1, 0, 0, 6, 0x2A]
      = ⟨[⟨0, ⟨0x28, "call", .token, .call⟩, .token ⟨0x06000001⟩, 5⟩,
          ⟨5, ⟨0x2A, "ret", .none, .leave⟩, .none, 6⟩], none⟩ := by cbv
  have hresolve : selfCallerModule.resolve? ⟨0x06000001⟩ = some selfCaller.key :=
    Std.HashMap.getElem?_insert_self
  have huses : (SymbolTable.ofModules [selfCallerModule]).uses
      = [⟨selfCaller.key, 0x28, some selfCaller.key⟩] := by
    rw [SymbolTable.uses, hbodies, List.flatMap_singleton, Body.uses, hdecode, ← hresolve]
    rfl
  -- The rest is a matter of looking at one body and one use.
  constructor
  case isMethod => rfl
  case notIgnored => rfl
  case notSpecial => decide
  case notExcluded => decide +kernel
  case complete =>
    rw [ofModules_skips]
    rfl
  case decoded =>
    rw [hbodies, List.forall_mem_singleton, hdecode]
  case resolved =>
    rw [huses]
    decide
  case uncalled =>
    rw [huses]
    decide

/-- The one method of `selfCallerModule` is reported: its own call of itself does not count. -/
theorem report_selfCaller :
    (Validator.validate {} (.ofModules [selfCallerModule])).violations.filter
        (fun x => x.rule == "unused-method")
      = [Validator.violation .standard ⟨selfCallerType, some selfCaller⟩ "unused-method"
          "Method is never called"] := by
  have hdead : (SymbolTable.ofModules [selfCallerModule]).symbols.filter
      (fun s => IsDeadMethod (.ofModules [selfCallerModule]) s)
        = [⟨selfCallerType, some selfCaller⟩] := by
    have htype : ¬ IsDeadMethod (.ofModules [selfCallerModule]) ⟨selfCallerType, none⟩ := by
      intro h
      cases h.isMethod
    rw [SymbolTable.symbols, types_selfCaller]
    change List.filter _
      ([⟨selfCallerType, none⟩, ⟨selfCallerType, some selfCaller⟩] : List Symbol) = _
    rw [List.filter_cons_of_neg (by simpa using htype),
      List.filter_cons_of_pos (by simpa using isDeadMethod_selfCaller), List.filter_nil]
  have hregistry : ({} : Validator).registry = (Registry.builtin.registerAll []).2 := rfl
  have hactive : ∀ r ∈ Rule.builtin, r ∈ ({} : Validator).activeRules := fun r hr =>
    Validator.mem_activeRules_of_builtin hregistry hr List.not_mem_nil
  have hreport := (dead_verdicts_exact {}
    (Validator.nodup_ids_activeRules (Validator.nodup_ids_of_builtin hregistry))
    (hactive _ (by simp [Rule.builtin])) (hactive _ (by simp [Rule.builtin])) (fun _ => rfl)
    [selfCallerModule]).1
  rw [hdead] at hreport
  exact List.perm_singleton.mp hreport

end CilLint
