import CilLint.Proofs.Growth
import CilLint.Proofs.Provenance

/-!
# What built-in rules see of a symbol

The entry of a type holds its number, the numbers of others, ignore markers, and a module with the
trees of all its types. Built-in rules look at none of this. `Symbol.outline` is the symbol with
these parts blanked out, and every built-in rule says the same about a symbol and about its outline
(`Rule.check_outline`).

Rules also look at the references of the whole table, but only by asking questions, so indexes that
answer alike are as good as one (`Rule.check_eq_of_agrees`). The bodies that references are taken
from can be read off outlines too (`SymbolTable.map_outline_bodies`).

Hence a report of built-in rules is determined by the *views* of the symbols, which are their
outlines and whether they are ignored, and by what the table leaves out: see
`Validator.map_violation_findings`, `Validator.symbolsChecked_validate` and
`Validator.ignored_validate`. To compare two reports it is enough to compare the views.
-/

namespace CilLint

/-! ### Outlines -/

/-- A module without its types. The meaning of tokens stays. -/
def Module.outline (m : Module) : Module := ⟨{ name := m.name, location := m.location }, m.tokens⟩

/-- What a type declares, without its marker. -/
def TypeInfo.outline (info : TypeInfo) : TypeInfo := { info with ignore := none }

/-- A member without its marker. -/
def Member.outline (m : Member) : Member := { m with ignore := none }

/-- The entry of a member without its numbers and its marker. -/
def MemberEntry.outline (e : MemberEntry) : MemberEntry := ⟨0, 0, e.member.outline, e.key, false⟩

/-- An entry without numbers and markers. How many types are nested in it can still be told. -/
def TypeEntry.outline (t : TypeEntry) : TypeEntry where
  id := 0
  module := t.module.outline
  parent := none
  fullName := t.fullName
  info := t.info.outline
  nested := t.nested.map fun _ => 0
  isIgnored := false
  members := t.members.map MemberEntry.outline

/-- **A symbol as built-in rules see it.** -/
def Symbol.outline (s : Symbol) : Symbol := ⟨s.declaringType.outline, s.entry.map MemberEntry.outline⟩

/-- The outline of a symbol, and whether it is ignored. -/
def Symbol.view (s : Symbol) : Symbol × Bool := (s.outline, s.isIgnored)

namespace Symbol

/-- What a symbol is, its key and its body can be told from its outline. Only what is asked of the
member itself is asked of a member without its marker. -/
@[simp] theorem kind_outline (s : Symbol) : s.outline.kind = s.kind := by
  unfold kind outline
  cases s.entry <;> rfl

@[simp] theorem key?_outline (s : Symbol) : s.outline.key? = s.key? := by
  unfold key? outline
  cases s.entry <;> rfl

@[simp] theorem member?_outline (s : Symbol) : s.outline.member? = s.member?.map Member.outline := by
  unfold member? outline
  cases s.entry <;> rfl

@[simp] theorem body?_outline (s : Symbol) : s.outline.body? = s.body? := by
  unfold body?
  rw [member?_outline]
  cases s.member? <;> rfl

/-- Whether someone wrote a method by hand depends on names, flags and attributes, and not on
markers. -/
theorem authoredMethod?_outline (s : Symbol) :
    s.outline.authoredMethod? = s.authoredMethod?.map Member.outline := by
  unfold authoredMethod?
  rw [member?_outline, kind_outline]
  cases s.member? with
  | none => rfl
  | some m =>
    let info := s.declaringType.info
    change (if s.kind == .method && !m.flags.hasSpecialName && !isGeneratedMember info m &&
        !isSynthesized info m then some m.outline else none) = _
    exact (apply_ite (Option.map Member.outline) _ (some m) none).symm

end Symbol

/-- The same for the reasons not to report a member as unused. -/
@[simp] theorem exclusion?_outline (s : Symbol) : exclusion? s.outline = exclusion? s := by
  unfold exclusion?
  rw [Symbol.member?_outline]
  cases s.member? <;> rfl

/-! ### Rules on outlines -/

namespace ReferenceIndex

variable (index : ReferenceIndex) (s : Symbol)

/-- Questions to an index are asked with the key of a symbol, after its kind and its exclusion are
known. So they have the same answers for the outline. -/
@[simp] theorem isUnusedField_outline : index.isUnusedField s.outline = index.isUnusedField s := by
  rw [isUnusedField, Symbol.kind_outline, exclusion?_outline, Symbol.key?_outline]
  rfl

@[simp] theorem isUnusedMethod_outline : index.isUnusedMethod s.outline = index.isUnusedMethod s := by
  rw [isUnusedMethod, Symbol.kind_outline, exclusion?_outline, Symbol.key?_outline,
    Symbol.member?_outline, Option.any_map]
  rfl

/-- Properties are asked for by the key of their getter, which comes with the entry of the member. -/
@[simp] theorem isUnusedProperty_outline :
    index.isUnusedProperty s.outline = index.isUnusedProperty s := by
  rw [isUnusedProperty, Symbol.kind_outline, exclusion?_outline, Symbol.outline, Option.any_map]
  rfl

end ReferenceIndex

namespace Rule

/-- The search for throws resolves tokens, and that is why the outline of a module keeps them. -/
theorem throwsNotImplemented_outline (s : Symbol) (m : Member) :
    throwsNotImplemented s.outline m.outline = throwsNotImplemented s m := by
  -- The module is passed along the whole scan, so the two scans go step by step.
  have hthrows : ∀ (constructed : Bool) (is : List Instruction),
      throwsFrom s.module.outline notImplementedException constructed is
        = throwsFrom s.module notImplementedException constructed is := by
    intro constructed is
    induction is generalizing constructed with
    | nil => rfl
    | cons i is ih =>
      rw [throwsFrom, throwsFrom, ih, ih]
      rfl
  unfold throwsNotImplemented
  congr 1
  funext body
  exact hthrows false _

/-- The rules on shapes test the profile of a body and perhaps something about the member, which has
to be something that a marker does not change. -/
theorem onShape_outline (message : String) (test : Member → Profile → Bool)
    (htest : ∀ m p, test m.outline p = test m p) (s : Symbol) :
    onShape message test s.outline = onShape message test s := by
  unfold onShape
  rw [s.authoredMethod?_outline]
  cases s.authoredMethod? with
  | none => rfl
  | some m =>
    have hbody : m.outline.body = m.body := rfl
    simp only [Option.map_some, hbody, htest]

/-- Which methods can be stubs does not depend on markers either. -/
theorem stubCandidate?_outline (s : Symbol) :
    stubCandidate? s.outline = (stubCandidate? s).map Member.outline := by
  unfold stubCandidate?
  rw [Symbol.kind_outline, Symbol.member?_outline, Symbol.authoredMethod?_outline]
  exact (apply_ite (Option.map Member.outline) _ _ _).symm

/-- **A built-in rule says the same about a symbol and its outline.** There is a case for each rule,
and each is one of the lemmas above on what the rule looks at. -/
theorem check_outline {r : Rule} (hr : r ∈ Rule.builtin) (ctx : RuleContext) (s : Symbol) :
    r.check ctx s.outline = r.check ctx s := by
  simp only [builtin, List.mem_cons, List.not_mem_nil, or_false] at hr
  rcases hr with rfl | rfl | rfl | rfl | rfl | rfl | rfl | rfl | rfl | rfl | rfl | rfl | rfl
  · -- `notImplemented`
    simp only [notImplemented, stubCandidate?_outline, Option.any_map, throwsNotImplemented_outline]
  -- `defaultReturn`, `constantReturn` and `emptyBody` test the profile of a body.
  · simp only [defaultReturn]
    exact onShape_outline _ _ (by intros; rfl) s
  · simp only [constantReturn]
    exact onShape_outline _ _ (by intros; rfl) s
  · simp only [emptyBody]
    exact onShape_outline _ _ (by intros; rfl) s
  · -- `incompleteType`
    have hmissing : (s.outline.declaringType.members.filter fun m => m.member.flags.isAbstract).map
          (fun m => m.member.name)
        = (s.declaringType.members.filter fun m => m.member.flags.isAbstract).map
            fun m => m.member.name := by
      change ((s.declaringType.members.map MemberEntry.outline).filter _).map _ = _
      rw [List.filter_map, List.map_map]
      rfl
    simp only [incompleteType, hmissing]
    rfl
  · -- `placeholderType`
    have hmembers : (s.outline.declaringType.members.any fun m => m.member.kind != .constructor)
        = s.declaringType.members.any fun m => m.member.kind != .constructor := List.any_map
    have hnested : s.outline.declaringType.nested.isEmpty = s.declaringType.nested.isEmpty :=
      List.isEmpty_map
    simp only [placeholderType, hmembers, hnested]
    rfl
  · -- `hollowEnum`
    rfl
  · -- `debugOnly`
    simp only [debugOnly, s.authoredMethod?_outline, Option.any_map]
    rfl
  · -- `phantomProperty`
    simp only [phantomProperty, s.member?_outline, Option.any_map]
    rfl
  · -- `prematureCelebration`
    simp only [prematureCelebration, s.authoredMethod?_outline, Option.any_map,
      throwsNotImplemented_outline]
    rfl
  · -- `unusedField`
    simp only [unusedField, ReferenceIndex.isUnusedField_outline, Symbol.key?_outline]
  · -- `unusedMethod`
    simp only [unusedMethod, ReferenceIndex.isUnusedMethod_outline]
  · -- `unusedProperty`
    simp only [unusedProperty, ReferenceIndex.isUnusedProperty_outline]

/-- Built-in rules look at references only by asking questions. So an index that answers them alike
may stand in for another. -/
theorem check_eq_of_agrees {r : Rule} (hr : r ∈ Rule.builtin) {ctx ctx' : RuleContext}
    (h : ctx.references.Agrees ctx'.references) (s : Symbol) : r.check ctx s = r.check ctx' s := by
  -- Three rules ask questions. All others do not look at references at all.
  by_cases husage : r.id ∈ Rule.usageIds
  · rcases eq_of_mem_usageIds hr husage with rfl | rfl | rfl
    · have hread := funext h.isRead
      have hwritten := funext h.isWritten
      simp only [unusedField, ReferenceIndex.isUnusedField, hread, hwritten]
      rfl
    · have hcalled := funext h.isCalled
      simp only [unusedMethod, ReferenceIndex.isUnusedMethod, hcalled]
      rfl
    · have hread := fun k => funext (h.isPropertyRead k)
      simp only [unusedProperty, ReferenceIndex.isUnusedProperty, hread]
      rfl
  · exact check_eq_of_not_mem_usageIds hr husage ctx ctx' s

/-- The rules on shapes have a finding or nothing to say. -/
theorem isFault_onShape (message : String) (test : Member → Profile → Bool) (s : Symbol) :
    (onShape message test s).isFault = false := by
  unfold onShape
  split
  · rfl
  · split
    · rfl
    · split_ifs <;> rfl

/-- Built-in rules never go wrong. -/
theorem isFault_of_mem_builtin {r : Rule} (hr : r ∈ Rule.builtin) (ctx : RuleContext) (s : Symbol) :
    (r.check ctx s).isFault = false := by
  simp only [builtin, List.mem_cons, List.not_mem_nil, or_false] at hr
  rcases hr with rfl | rfl | rfl | rfl | rfl | rfl | rfl | rfl | rfl | rfl | rfl | rfl | rfl
  -- Each is a conditional between findings and nothing to say.
  all_goals
    simp only [notImplemented, defaultReturn, constantReturn, emptyBody, incompleteType,
      placeholderType, hollowEnum, debugOnly, phantomProperty, prematureCelebration, unusedField,
      unusedMethod, unusedProperty, isFault_onShape]
  all_goals split_ifs <;> rfl

end Rule

/-! ### References -/

/-- A body with the outline of its module. -/
def Body.outline (b : Body) : Body := { b with module := b.module.outline }

/-- The body of a symbol, as the index gets it. -/
def Symbol.code? (s : Symbol) : Option Body :=
  s.entry.bind fun e => e.member.body.map fun bytes => ⟨s.module, e.key, bytes⟩

/-- The body of an outline is the body, in a module without types. -/
theorem Symbol.code?_outline (s : Symbol) : s.outline.code? = s.code?.map Body.outline := by
  unfold code? outline
  cases s.entry with
  | none => rfl
  | some e =>
    rw [Option.bind_some, Option.map_map]
    rfl

/-- The bodies that an index is built from are those of the symbols, in their order. Types have
none. -/
theorem SymbolTable.bodies_eq (t : SymbolTable) : t.bodies = t.symbols.filterMap Symbol.code? := by
  unfold bodies symbols
  rw [List.filterMap_flatMap]
  refine List.flatMap_congr fun e _ => ?_
  rw [TypeEntry.symbols, List.filterMap_cons_none rfl, List.filterMap_map]
  rfl

/-- Outlines determine the bodies of a table, up to the types of their modules. These are not needed
to decode a body or to resolve its tokens. -/
theorem SymbolTable.map_outline_bodies (t : SymbolTable) :
    t.bodies.map Body.outline = (t.symbols.map Symbol.view).filterMap fun x => x.1.code? := by
  rw [bodies_eq, List.map_filterMap, List.filterMap_map]
  exact List.filterMap_congr fun s _ => s.code?_outline.symm

namespace ReferenceIndex

/-- An index is about the tokens of modules, not about their types. What is left of a module in its
outline is enough to scan its bodies. -/
theorem ofBodies_map_outline (bodies : List Body) :
    ofBodies (bodies.map Body.outline) = ofBodies bodies := by
  unfold ofBodies
  rw [List.foldl_map]
  rfl

/-- What is recorded of bodies without the types of their modules is recorded of the bodies. Records
have the number of bodies and whether each one decodes, and both stay. -/
theorem Records.of_map_outline {index : ReferenceIndex} {bodies : List Body} {uses : List Use}
    (h : Records index (bodies.map Body.outline) uses) : Records index bodies uses where
  reads := h.reads
  writes := h.writes
  callers := h.callers
  bodies := h.bodies.trans (List.length_map _)
  fieldsDegraded := by rw [h.fieldsDegraded, List.any_map]; rfl
  callsDegraded := by rw [h.callsDegraded, List.any_map]; rfl

/-- **Tables with the same views, in any order, have indexes that agree.** The bodies are the same up
to order and to the types of their modules, and an index records the bodies in any order. -/
theorem agrees_of_perm {t t' : SymbolTable}
    (hviews : (t.symbols.map Symbol.view).Perm (t'.symbols.map Symbol.view))
    (hcomplete : t.isComplete = t'.isComplete) : (ofTable t).Agrees (ofTable t') := by
  have hbodies : (t.bodies.map Body.outline).Perm (t'.bodies.map Body.outline) := by
    rw [t.map_outline_bodies, t'.map_outline_bodies]
    exact hviews.filterMap _
  have huses : (t'.bodies.map Body.outline).flatMap Body.uses = t'.uses :=
    List.flatMap_map _ _ _
  have hrecords : Records (ofBodies t.bodies) t'.bodies t'.uses := by
    rw [← ofBodies_map_outline, ← huses]
    exact ((records_ofBodies _).perm hbodies (hbodies.flatMap_right Body.uses)).of_map_outline
  unfold ofTable
  rw [hcomplete]
  exact hrecords.exact.agrees (exact_ofTable t')

end ReferenceIndex

/-! ### Reports -/

/-- No fault in any part is no fault in the whole. -/
theorem Report.faults_mergeAll_eq_nil {reports : List Report} (h : ∀ r ∈ reports, r.faults = []) :
    (mergeAll reports).faults = [] := by
  induction reports with
  | nil => rfl
  | cons r reports ih =>
    obtain ⟨hr, hreports⟩ := List.forall_mem_cons.mp h
    change r.faults ++ (mergeAll reports).faults = []
    rw [hr, ih hreports, List.nil_append]

namespace Validator

/-- Whether a pass looks at a symbol with a given view. -/
def looksAtView (v : Validator) (x : Symbol × Bool) : Bool := v.eligibleType x.1.declaringType && !x.2

/-- The violations of some rules on a symbol. -/
def violationsOn (ctx : RuleContext) (rules : List Rule) (s : Symbol) : List Violation :=
  (findingsOn ctx rules s).map (Finding.violation ctx.weights)

/-- The violations on a symbol, written out rule by rule. -/
theorem violationsOn_eq (ctx : RuleContext) (rules : List Rule) (s : Symbol) :
    violationsOn ctx rules s = rules.filterMap fun r =>
      if r.appliesTo s.kind then
        (r.check ctx s).finding?.map fun message => Finding.violation ctx.weights ⟨s, r, message⟩
      else none := by
  unfold violationsOn findingsOn
  rw [List.map_filterMap]
  refine List.filterMap_congr fun r _ => ?_
  by_cases happlies : r.appliesTo s.kind = true
  · rw [if_pos happlies, if_pos happlies, Option.map_map]
    rfl
  · rw [if_neg happlies, if_neg happlies]
    rfl

/-- A violation names the type and the member and where they are from, and all of this is in the
outline. -/
theorem violation_outline (weights : Weights Float) (s : Symbol) (r : Rule) (message : String) :
    Finding.violation weights ⟨s.outline, r, message⟩ = Finding.violation weights ⟨s, r, message⟩ := by
  have hmember : (s.outline.entry.map fun e => e.member.name) = s.entry.map fun e => e.member.name :=
    Option.map_map _ _ _
  unfold Finding.violation
  simp only [hmember, Symbol.body?_outline]
  rfl

variable {rules : List Rule}

/-- **Violations of built-in rules go by outlines** and by the answers of the index. The context of
the pass has nothing else that such rules look at. -/
theorem violationsOn_outline (hrules : rules ⊆ Rule.builtin) {ctx ctx' : RuleContext}
    (hreferences : ctx.references.Agrees ctx'.references) (hweights : ctx.weights = ctx'.weights)
    (s : Symbol) : violationsOn ctx rules s = violationsOn ctx' rules s.outline := by
  rw [violationsOn_eq, violationsOn_eq]
  refine List.filterMap_congr fun r hr => ?_
  rw [Symbol.kind_outline, Rule.check_outline (hrules hr), hweights,
    Rule.check_eq_of_agrees (hrules hr) hreferences]
  simp only [violation_outline]

/-- If nothing but the built-in rules is registered, the active rules are some of them. -/
theorem activeRules_subset_builtin {v : Validator} (hregistry : v.registry = .builtin) :
    v.activeRules ⊆ Rule.builtin := by
  intro r hr
  have hmem := (List.mem_filter.mp hr).1
  rw [hregistry] at hmem
  exact hmem

/-- Before they are sorted, the violations of a pass with built-in rules follow from the views. A view
has the outline of a symbol and whether it is ignored, and the pass asks no more. -/
theorem map_violation_findings {v : Validator} (hrules : v.activeRules ⊆ Rule.builtin)
    {t : SymbolTable} {ctx : RuleContext}
    (hreferences : (v.context t).references.Agrees ctx.references)
    (hweights : (v.context t).weights = ctx.weights) :
    (v.findings t).map (Finding.violation v.weights)
      = ((t.symbols.map Symbol.view).filter v.looksAtView).flatMap fun x =>
          violationsOn ctx v.activeRules x.1 := by
  rw [findings_eq, List.map_flatMap, List.filter_map, List.flatMap_map]
  exact List.flatMap_congr fun s _ => violationsOn_outline hrules hreferences hweights s

/-- How many symbols were checked follows from the views. -/
theorem symbolsChecked_validate (v : Validator) (t : SymbolTable) :
    (v.validate t).symbolsChecked = (t.symbols.map Symbol.view).countP v.looksAtView := by
  rw [(v.reportsExactly_validate t).symbolsChecked, eligibleSymbols_eq, List.countP_map,
    List.countP_eq_length_filter]
  rfl

/-- And so does how many were ignored. A symbol counts as ignored once if it is and if its type is
eligible. -/
theorem ignored_validate (v : Validator) (t : SymbolTable) :
    (v.validate t).ignored
      = (t.symbols.map Symbol.view).countP fun x => x.2 && v.eligibleType x.1.declaringType := by
  -- Each symbol counts once, either as checked or as ignored.
  have hsymbol : ∀ s, (reportOnSymbol (v.context t) v.activeRules s).ignored = s.isIgnored.toNat := by
    intro s
    have hone := checked_add_ignored_reportOnSymbol (v.context t) v.activeRules s
    unfold reportOnSymbol at hone ⊢
    cases hignored : s.isIgnored with
    | true => rfl
    | false =>
      rw [hignored, if_neg (by simp)] at hone
      rw [if_neg (by simp)]
      have hchecked : (checkSymbol (v.context t) v.activeRules s).symbolsChecked = 1 := rfl
      rw [Bool.toNat_false]
      omega
  change (v.checkTypes (v.context t)).ignored = _
  rw [checkTypes_eq, Report.count_mergeAll (f := Report.ignored) rfl (fun _ _ => rfl), List.map_map,
    List.countP_map]
  simp only [Function.comp_def, hsymbol]
  rw [sum_map_toNat, List.countP_filter]
  rfl

/-- Built-in rules leave no faults behind, so all faults are about what could not be loaded. -/
theorem faults_validate {v : Validator} (hrules : v.activeRules ⊆ Rule.builtin) (t : SymbolTable) :
    (v.validate t).faults = t.skips.map Skip.message := by
  -- From one rule on one symbol to all rules on it, and then to all symbols.
  have hrule : ∀ s, ∀ r ∈ v.activeRules, (checkRule (v.context t) s r).faults = [] := by
    intro s r hr
    have hfine := Rule.isFault_of_mem_builtin (hrules hr) (v.context t) s
    unfold checkRule
    split_ifs
    · change (r.fault? s (r.check (v.context t) s)).toList = []
      cases hverdict : r.check (v.context t) s <;> rw [hverdict] at hfine
      case clean | found => rfl
      case failed | crashed => cases hfine
    · rfl
  have hsymbol : ∀ s, (reportOnSymbol (v.context t) v.activeRules s).faults = [] := by
    intro s
    unfold reportOnSymbol
    split_ifs
    · rfl
    · refine Report.faults_mergeAll_eq_nil fun report hreport => ?_
      obtain ⟨r, hr, rfl⟩ := List.mem_map.mp hreport
      exact hrule s r hr
  have hfound : (v.checkTypes (v.context t)).faults = [] := by
    rw [checkTypes_eq]
    refine Report.faults_mergeAll_eq_nil fun report hreport => ?_
    obtain ⟨s, -, rfl⟩ := List.mem_map.mp hreport
    exact hsymbol s
  change t.skips.map Skip.message ++ (v.checkTypes (v.context t)).faults = _
  rw [hfound, List.append_nil]

/-- For the same reason no rule counts as having failed. -/
theorem ruleFaults_validate {v : Validator} (hrules : v.activeRules ⊆ Rule.builtin)
    (t : SymbolTable) : (v.validate t).ruleFaults = 0 := by
  rw [(v.reportsExactly_validate t).ruleFaults, List.countP_eq_zero]
  intro x hx
  have hmem : x.2 ∈ v.activeRules := (List.mem_product.mp (List.mem_filter.mp hx).1).2
  rw [verdict, Rule.isFault_of_mem_builtin (hrules hmem)]
  decide

end Validator

/-! ### Views of sites -/

namespace Site

/-- The outline of the entry of a member of a site. -/
def memberOutline (s : Site) (m : Member) : MemberEntry :=
  ⟨0, 0, m.outline, m.key (pathName s.path), false⟩

/-- The outline of the entry of a site, whatever its number is. -/
def outline (s : Site) : TypeEntry where
  id := 0
  module := s.module.outline
  parent := none
  fullName := pathName s.path
  info := s.type.info.outline
  nested := (loadedPositions 0 s.type.nested).map fun _ => 0
  isIgnored := false
  members := s.loaded.map s.memberOutline

/-- The views of the type at a site and of its members. -/
def views (s : Site) : List (Symbol × Bool) :=
  (⟨s.outline, none⟩, s.isIgnored) ::
    s.loaded.map fun m => (⟨s.outline, some (s.memberOutline m)⟩, s.isIgnored || m.ignore.isSome)

/-- The entry of a site has the outline of the site, whatever number it gets. Numbers and what refers
to them are left out of outlines. -/
theorem outline_entry (all : List Site) (i : Nat) (s : Site) : (s.entry all i).outline = s.outline := by
  unfold TypeEntry.outline entry outline
  congr 1
  · exact List.map_map
  · -- The members are numbered, but their outlines are not.
    rw [List.map_map]
    change (s.loaded.zipIdx _).map (s.memberOutline ∘ Prod.fst) = _
    rw [← List.map_map, List.zipIdx_map_fst]

/-- The symbols of the entry have the views of the site: first the type, then its members. -/
theorem views_entry (all : List Site) (i : Nat) (s : Site) :
    (s.entry all i).symbols.map Symbol.view = s.views := by
  have htype : ∀ entry, Symbol.outline ⟨s.entry all i, entry⟩
      = ⟨s.outline, entry.map MemberEntry.outline⟩ := by
    intro entry
    rw [Symbol.outline, outline_entry]
  have hmember : (Symbol.view ∘ fun e => ⟨s.entry all i, some e⟩)
      = fun e => (⟨s.outline, some e.outline⟩, e.isIgnored) := by
    funext e
    rw [Function.comp_apply, Symbol.view, htype]
    rfl
  unfold TypeEntry.symbols views
  rw [List.map_cons, List.map_map, hmember, Symbol.view, htype]
  -- Members are numbered in the entry; the numbers are dropped again.
  change _ :: ((s.loaded.zipIdx _).map _).map _ = _
  rw [List.map_map]
  change _ :: (s.loaded.zipIdx _).map ((fun m => (Symbol.mk s.outline (some (s.memberOutline m)),
    s.isIgnored || m.ignore.isSome)) ∘ Prod.fst) = _
  rw [← List.map_map, List.zipIdx_map_fst]
  rfl

end Site

/-- **The views of a table are those of its sites.** No number is part of a view, so the table need
not be known to tell the views of its symbols. -/
theorem map_view_symbols (modules : List Module) :
    (SymbolTable.ofModules modules).symbols.map Symbol.view
      = (sitesOfModules modules).flatMap Site.views := by
  -- The induction is on the sites that are left, with the numbers counted from `start`.
  have hentries : ∀ (all : List Site) (start : Nat) (sites : List Site),
      ((entriesFrom all start sites).flatMap TypeEntry.symbols).map Symbol.view
        = sites.flatMap Site.views := by
    intro all start sites
    induction sites generalizing start with
    | nil => rfl
    | cons s sites ih =>
      rw [entriesFrom_cons, List.flatMap_cons, List.map_append, Site.views_entry, ih,
        List.flatMap_cons]
  rw [SymbolTable.symbols, ofModules_types, hentries]

end CilLint
