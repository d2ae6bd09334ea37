import CilLint.Proofs.DeadVerdict
import CilLint.Proofs.Findings

/-!
# More code never creates dead code

Two passes are compared here: one over some modules, and one over these modules and more of them.
`SymbolTable.Grows` relates the two tables. The larger one starts with the types and skips of the
smaller one (`grows_ofModules`), so it has all bodies and all uses of it.

Whether a member counts as used is monotone in this relation (`Grows.isCalled`, `Grows.isRead`):
more bodies mean more uses, and what is left out or cannot be read only makes more members count as
used. So the rules on dead members can only lose findings. All other rules look at nothing but the symbol
itself (`check_eq_of_not_mem_usageIds`), so they find the same as before.
-/

namespace CilLint

/-! ### Tables that grow -/

/-- What it means that a table starts with all that is in another one. -/
structure SymbolTable.Grows (t t' : SymbolTable) : Prop where
  types : t.types <+: t'.types
  skips : t.skips <+: t'.skips

/-- The sites of more modules come after the others, at the positions that follow. -/
theorem sitesFrom_append (position : Nat) (modules more : List Module) :
    sitesFrom position (modules ++ more)
      = sitesFrom position modules ++ sitesFrom (position + modules.length) more := by
  rw [sitesFrom, List.zipIdx_append, List.flatMap_append]
  rfl

/-- **More modules make the table grow.** Types are entered module by module, and what is entered
later changes nothing about earlier entries but what is nested in a type, which comes from the same
module. -/
theorem grows_ofModules (modules more : List Module) :
    (SymbolTable.ofModules modules).Grows (.ofModules (modules ++ more)) := by
  -- After the first modules, the enumeration has put all of their sites behind it.
  have hpast : (modules.foldl Enumeration.enterModule {}).Past (sitesOfModules modules) := by
    have hempty : Enumeration.Past {} [] := ⟨rfl, rfl⟩
    rw [foldl_enterModule_empty]
    exact hempty.extend (sitesOfModules modules) none [] (sitesOfModules modules) _
  have hall : sitesOfModules (modules ++ more)
      = sitesOfModules modules ++ (sitesFrom modules.length more ++ []) := by
    rw [List.append_nil, sitesOfModules, sitesOfModules, sitesFrom_append, Nat.zero_add]
  -- Outermost types are in no other type, so what was entered first is not touched again.
  have hmore := Enumeration.foldl_enterModule (preordered_sites (modules ++ more)).nodup hall hpast
  refine ⟨?_, ?_⟩
  · rw [SymbolTable.ofModules, SymbolTable.ofModules, List.foldl_append, hmore]
    simp [Enumeration.extend, Enumeration.noteNested]
  · rw [ofModules_skips, ofModules_skips, List.flatMap_append]
    exact List.prefix_append _ _

namespace SymbolTable.Grows

variable {t t' : SymbolTable}

/-- The symbols of the smaller table come first and in their order. -/
theorem symbols (h : t.Grows t') : t.symbols <+: t'.symbols := by
  obtain ⟨more, hmore⟩ := h.types
  rw [SymbolTable.symbols, SymbolTable.symbols, ← hmore, List.flatMap_append]
  exact List.prefix_append _ _

/-- Each body of the smaller table is one of the larger table, and with it each of its uses. -/
theorem bodies (h : t.Grows t') : t.bodies ⊆ t'.bodies := by
  intro b hb
  obtain ⟨e, he, hbody⟩ := List.mem_flatMap.mp hb
  exact List.mem_flatMap.mpr ⟨e, h.types.subset he, hbody⟩

theorem uses (h : t.Grows t') : t.uses ⊆ t'.uses := by
  intro u hu
  obtain ⟨b, hb, huse⟩ := List.mem_flatMap.mp hu
  exact List.mem_flatMap.mpr ⟨b, h.bodies hb, huse⟩

/-- If nothing is left out of the larger table, then nothing is left out of the smaller one. So a
smaller table is never less certain than a larger one. -/
theorem skips_eq_nil (h : t.Grows t') (hskips : t'.skips = []) : t.skips = [] := by
  have hprefix := h.skips
  rw [hskips] at hprefix
  exact List.prefix_nil.mp hprefix

/-! ### Members in use -/

/-- A member that is called stays called. It is stated the other way round: what is not called in the
larger table was not called before, since each reason to count as called is still there. -/
theorem isCalled (h : t.Grows t') {k : MemberKey}
    (hunused : (ReferenceIndex.ofTable t').isCalled k = false) :
    (ReferenceIndex.ofTable t).isCalled k = false := by
  rw [(ReferenceIndex.exact_ofTable _).isCalled_eq_false_iff] at hunused ⊢
  obtain ⟨hskips, hdecoded, hresolved, huncalled⟩ := hunused
  exact ⟨h.skips_eq_nil hskips, fun b hb => hdecoded b (h.bodies hb),
    fun u hu => hresolved u (h.uses hu), fun u hu => huncalled u (h.uses hu)⟩

/-- A field that is read stays read. -/
theorem isRead (h : t.Grows t') {k : MemberKey}
    (hunused : (ReferenceIndex.ofTable t').isRead k = false) :
    (ReferenceIndex.ofTable t).isRead k = false := by
  rw [(ReferenceIndex.exact_ofTable _).isRead_eq_false_iff] at hunused ⊢
  obtain ⟨hskips, hdecoded, hresolved, hunread⟩ := hunused
  exact ⟨h.skips_eq_nil hskips, fun b hb => hdecoded b (h.bodies hb),
    fun u hu => hresolved u (h.uses hu), fun u hu => hunread u (h.uses hu)⟩

/-- What is unused in the larger table was unused before. The three tests ask the same of the index,
for fields whether they are read, for methods whether they are called, and for properties whether
their getter is. -/
theorem isUnusedField (h : t.Grows t') {s : Symbol}
    (hunused : (ReferenceIndex.ofTable t').isUnusedField s = true) :
    (ReferenceIndex.ofTable t).isUnusedField s = true := by
  simp only [ReferenceIndex.isUnusedField, Bool.and_eq_true, Option.any_eq_true,
    Bool.not_eq_true'] at hunused ⊢
  obtain ⟨hfield, k, hk, hread⟩ := hunused
  exact ⟨hfield, k, hk, h.isRead hread⟩

theorem isUnusedMethod (h : t.Grows t') {s : Symbol}
    (hunused : (ReferenceIndex.ofTable t').isUnusedMethod s = true) :
    (ReferenceIndex.ofTable t).isUnusedMethod s = true := by
  simp only [ReferenceIndex.isUnusedMethod, Bool.and_eq_true, Option.any_eq_true,
    Bool.not_eq_true'] at hunused ⊢
  obtain ⟨hmethod, k, hk, hcalled⟩ := hunused
  exact ⟨hmethod, k, hk, h.isCalled hcalled⟩

theorem isUnusedProperty (h : t.Grows t') {s : Symbol}
    (hunused : (ReferenceIndex.ofTable t').isUnusedProperty s = true) :
    (ReferenceIndex.ofTable t).isUnusedProperty s = true := by
  simp only [ReferenceIndex.isUnusedProperty, ReferenceIndex.isPropertyRead, Bool.and_eq_true,
    Option.any_eq_true, Bool.not_eq_true'] at hunused ⊢
  obtain ⟨hproperty, e, he, hcalled⟩ := hunused
  exact ⟨hproperty, e, he, h.isCalled hcalled⟩

end SymbolTable.Grows

/-! ### Rules -/

/-- The ids of the rules that look at the references of the whole table. -/
def Rule.usageIds : List String := ["unused-field", "unused-method", "unused-property"]

/-- A rule with a single condition finds something only on that condition. -/
theorem Verdict.of_ite_eq_found {p : Bool} {text message : String}
    (h : (if p then Verdict.found text else .clean) = .found message) : p = true := by
  cases p with
  | true => rfl
  | false => cases h

/-- The three rules that look at references are known by their ids. -/
theorem Rule.eq_of_mem_usageIds {r : Rule} (hr : r ∈ Rule.builtin) (husage : r.id ∈ Rule.usageIds) :
    r = .unusedField ∨ r = .unusedMethod ∨ r = .unusedProperty := by
  simp only [Rule.builtin, List.mem_cons, List.not_mem_nil, or_false] at hr
  rcases hr with rfl | rfl | rfl | rfl | rfl | rfl | rfl | rfl | rfl | rfl | hr
  -- None of the first ten has such an id.
  iterate 10 exact absurd husage (by decide)
  exact hr

/-- A rule on dead members that finds something in a table would have found something in the table
it grew from. -/
theorem Rule.found_of_grows {r : Rule} (hr : r ∈ Rule.builtin) (husage : r.id ∈ Rule.usageIds)
    {t t' : SymbolTable} (h : t.Grows t') (weights : Weights Float) {s : Symbol} {message : String}
    (hfound : r.check (.ofTable weights t') s = .found message) :
    ∃ message', r.check (.ofTable weights t) s = .found message' := by
  -- Each of the three finds something exactly if the index calls the symbol unused.
  rcases Rule.eq_of_mem_usageIds hr husage with rfl | rfl | rfl
  · exact ⟨_, if_pos (h.isUnusedField (Verdict.of_ite_eq_found hfound))⟩
  · exact ⟨_, if_pos (h.isUnusedMethod (Verdict.of_ite_eq_found hfound))⟩
  · exact ⟨_, if_pos (h.isUnusedProperty (Verdict.of_ite_eq_found hfound))⟩

/-- All other rules look at nothing but the symbol. They are given the context of a pass as well, but
do not ask it for anything. -/
theorem Rule.check_eq_of_not_mem_usageIds {r : Rule} (hr : r ∈ Rule.builtin)
    (husage : r.id ∉ Rule.usageIds) (ctx ctx' : RuleContext) (s : Symbol) :
    r.check ctx s = r.check ctx' s := by
  simp only [Rule.builtin, List.mem_cons, List.not_mem_nil, or_false] at hr
  rcases hr with rfl | rfl | rfl | rfl | rfl | rfl | rfl | rfl | rfl | rfl | rfl | rfl | rfl
  iterate 10 rfl
  all_goals exact absurd (by decide) husage

/-- **More code never creates dead code.** Whatever module is added to some modules, their symbols
stay as they are. Those of them that a rule on dead members reports afterwards were reported by it
before, and the other built-in rules say the same about them as before. -/
theorem growth_creates_no_dead_code (v : Validator) (modules : List Module) (x : Module) :
    let before := SymbolTable.ofModules modules
    let after := SymbolTable.ofModules (modules ++ [x])
    before.symbols <+: after.symbols ∧
      (∀ r ∈ Rule.builtin, ∀ s ∈ before.symbols,
        (r.id ∈ Rule.usageIds → (∃ message, ⟨s, r, message⟩ ∈ v.findings after) →
          ∃ message, ⟨s, r, message⟩ ∈ v.findings before) ∧
        (r.id ∉ Rule.usageIds → ∀ message,
          ⟨s, r, message⟩ ∈ v.findings after ↔ ⟨s, r, message⟩ ∈ v.findings before)) ∧
      ∀ t ∈ [before, after],
        (v.validate t).violations.Perm ((v.findings t).map (Finding.violation v.weights)) := by
  intro before after
  have hgrows : before.Grows after := grows_ofModules modules [x]
  refine ⟨hgrows.symbols, ?_, fun t _ => v.perm_findings t⟩
  intro r hr s hs
  have hs' : s ∈ after.symbols := hgrows.symbols.subset hs
  simp only [Validator.mem_findings]
  -- Whether a pass looks at a symbol and which rules it applies does not depend on the table, so
  -- only what the rules say is compared.
  refine ⟨?_, ?_⟩
  · rintro husage ⟨message, -, hlooks, hactive, happlies, hfound⟩
    obtain ⟨message', hfound'⟩ := Rule.found_of_grows hr husage hgrows v.weights hfound
    exact ⟨message', hs, hlooks, hactive, happlies, hfound'⟩
  · intro husage message
    rw [Rule.check_eq_of_not_mem_usageIds hr husage (v.context after) (v.context before)]
    simp only [hs, hs', true_and]

end CilLint
