import CilLint.Proofs.Pass
import CilLint.Proofs.StableSort
import Mathlib.Algebra.Ring.Nat
import Mathlib.Data.List.ProdSigma

/-!
# A pass reports exactly the findings

What a pass should report is said here without loops over types and without merging: `applications`
pairs each eligible symbol with each active rule that looks at symbols of its kind, and a `Finding` is
a pair on which the rule has something to say. `ReportsExactly` relates a report to these lists.

* **Violations** are the findings, sorted stably. `StablySorts` says what that means without an
  algorithm, and it leaves only one list (`StablySorts.unique`).
* **Numbers** add up: `count_checkTypes` is one statement for all of them, since every number of a
  merged report is the sum of those of the parts.

The reports on types may be put together by any `Reduction`: a tree of merges that keeps the order of
the types and may have empty reports anywhere. Reports form a monoid (`Report.merge_assoc`,
`Report.empty_merge`, `Report.merge_empty`), so the tree makes no difference (`Reduction.report_eq`).
-/

namespace CilLint

/-! ### Violations in order -/

namespace Violation

/-- The order compares the parts of two violations one after the other. -/
instance : Std.TransCmp order :=
  inferInstanceAs (Std.TransCmp (compareLex (compareOn declaringType)
    (compareLex (compareOn member) (compareLex (compareOn rule)
      (compareLex (compareOn fun v => v.location.file) (compareOn fun v => v.location.line))))))

end Violation

/-- **What it means to sort violations stably:** nothing is lost or added, the result is in order, and
violations that the order does not tell apart stand as they stood before. -/
structure StablySorts (vs sorted : List Violation) : Prop where
  perm : sorted.Perm vs
  ordered : sorted.Pairwise fun a b => (a.order b).isLE = true
  stable : ∀ a : Violation,
    (sorted.filter fun b => a.order b = .eq) = vs.filter fun b => a.order b = .eq

/-- Reports sort their violations stably: this is what sorting by a key gives, with the order of
violations in place of the order of keys. -/
theorem stablySorts_sortViolations (vs : List Violation) :
    StablySorts vs (Report.sortViolations vs) where
  perm := perm_sortOn vs
  ordered := pairwise_sortOn vs
  stable := fun a => filter_class_sortOn a vs

/-- **A list can be sorted stably in one way only.** Where the order leaves a choice, stability takes
it away. -/
theorem StablySorts.unique {vs a b : List Violation} (ha : StablySorts vs a)
    (hb : StablySorts vs b) : a = b :=
  eq_of_classes ha.ordered hb.ordered fun c => (ha.stable c).trans (hb.stable c).symm

/-- So the sorted violations of a report are known by what they are, not by how they are computed. -/
theorem stablySorts_iff {vs sorted : List Violation} :
    StablySorts vs sorted ↔ sorted = Report.sortViolations vs := by
  refine ⟨fun h => h.unique (stablySorts_sortViolations vs), ?_⟩
  rintro rfl
  exact stablySorts_sortViolations vs

/-! ### Merged reports -/

namespace Report

/-- An empty report adds nothing on either side. This is what makes it harmless to have parts of a
pass that look at nothing. -/
@[simp] theorem empty_merge (r : Report) : merge {} r = r := by
  simp [merge]

@[simp] theorem merge_empty (r : Report) : r.merge {} = r := by
  simp [merge]

/-- It does not matter which reports are merged first, as long as their order is kept. The lists of a
report are appended, so the order does matter to them. -/
theorem merge_assoc (a b c : Report) : (a.merge b).merge c = a.merge (b.merge c) := by
  simp [merge, Nat.add_assoc]

theorem mergeAll_append (rs rs' : List Report) :
    mergeAll (rs ++ rs') = (mergeAll rs).merge (mergeAll rs') := by
  induction rs with
  | nil => exact (empty_merge _).symm
  | cons r rs ih => rw [List.cons_append, mergeAll, mergeAll, ih, merge_assoc]

/-- A number that is zero in an empty report and adds up when two reports are merged adds up over any
number of them. -/
theorem count_mergeAll {f : Report → Nat} (hempty : f {} = 0)
    (hmerge : ∀ a b : Report, f (a.merge b) = f a + f b) (rs : List Report) :
    f (mergeAll rs) = (rs.map f).sum := by
  induction rs with
  | nil => exact hempty
  | cons r rs ih => rw [mergeAll, hmerge, ih, List.map_cons, List.sum_cons]

end Report

/-- Counting is adding up. Reports are merged by adding their numbers, so counts come in this form. -/
theorem sum_map_toNat {α : Type} (p : α → Bool) (l : List α) :
    (l.map fun a => (p a).toNat).sum = l.countP p := by
  induction l with
  | nil => rfl
  | cons a l ih =>
    rw [List.map_cons, List.sum_cons, ih, List.countP_cons, Nat.add_comm]
    cases p a <;> rfl

/-! ### Findings -/

/-- What a rule says on a symbol. -/
structure Finding where
  symbol : Symbol
  rule : Rule
  message : String

/-- The violation that stands for a finding in a report. -/
def Finding.violation (weights : Weights Float) (f : Finding) : Violation where
  rule := f.rule.id
  declaringType := f.symbol.declaringType.fullName
  member := (f.symbol.entry.map fun e => e.member.name).getD ""
  message := f.message
  category := .ofMessage f.message
  location := { file := f.symbol.declaringType.module.manifest.location.getD "" }
  incompleteness := f.symbol.body?.map fun body => (profile body).score weights

theorem Verdict.finding?_eq_some_iff {verdict : Verdict} {message : String} :
    verdict.finding? = some message ↔ verdict = .found message := by
  cases verdict <;> simp [finding?]

namespace Validator

/-- The violation that a pass makes is the one that stands for the finding. -/
theorem violation_eq (weights : Weights Float) (f : Finding) :
    violation weights f.symbol f.rule.id f.message = f.violation weights := by
  have hmember : (if f.symbol.entry.isSome then f.symbol.name else "")
      = (f.symbol.entry.map fun e => e.member.name).getD "" := by
    rw [Symbol.name]
    cases f.symbol.entry <;> rfl
  rw [violation, hmember]
  rfl

/-- Whether a pass looks at a symbol. -/
def looksAt (v : Validator) (s : Symbol) : Bool :=
  !s.declaringType.info.isCompilerGenerated && v.eligible s.module.name && !s.isIgnored

/-- **What a pass does:** each symbol that it looks at, with each active rule that looks at symbols of
its kind. -/
def applications (v : Validator) (t : SymbolTable) : List (Symbol × Rule) :=
  ((v.eligibleSymbols t).product v.activeRules).filter fun p => p.2.appliesTo p.1.kind

/-- What the rule of an application makes of the symbol. -/
def verdict (v : Validator) (t : SymbolTable) (p : Symbol × Rule) : Verdict :=
  p.2.check (v.context t) p.1

/-- **What a pass finds,** in the order of the table and then of the rules. -/
def findings (v : Validator) (t : SymbolTable) : List Finding :=
  (v.applications t).filterMap fun p => (v.verdict t p).finding?.map (Finding.mk p.1 p.2)

/-- Symbols can be chosen by their types or one by one. -/
theorem flatMap_symbols_filter (v : Validator) (types : List TypeEntry) :
    (types.filter v.eligibleType).flatMap TypeEntry.symbols
      = (types.flatMap TypeEntry.symbols).filter fun s => v.eligibleType s.declaringType := by
  induction types with
  | nil => rfl
  | cons e types ih =>
    have htype : ∀ s ∈ e.symbols, v.eligibleType s.declaringType = v.eligibleType e := by
      intro s hs
      rw [declaringType_of_mem_symbols hs]
    rw [List.flatMap_cons, List.filter_append, ← ih, List.filter_congr htype]
    cases heligible : v.eligibleType e with
    | true => rw [List.filter_cons_of_pos heligible, List.flatMap_cons, List.filter_true]
    | false => rw [List.filter_cons_of_neg (by simp [heligible]), List.filter_false, List.nil_append]

/-- **The eligible symbols** are those of the table that the pass looks at. A pass picks types first,
and then symbols of these. -/
theorem eligibleSymbols_eq (v : Validator) (t : SymbolTable) :
    v.eligibleSymbols t = t.symbols.filter v.looksAt := by
  rw [eligibleSymbols, flatMap_symbols_filter, List.filter_filter]
  refine List.filter_congr fun s _ => ?_
  rw [Bool.and_comm]
  rfl

/-- **What is a finding:** a symbol of the table that the pass looks at, an active rule that looks at
symbols of its kind, and what this rule says on it. -/
theorem mem_findings {v : Validator} {t : SymbolTable} {f : Finding} :
    f ∈ v.findings t ↔
      f.symbol ∈ t.symbols ∧ v.looksAt f.symbol = true ∧ f.rule ∈ v.activeRules ∧
        f.rule.appliesTo f.symbol.kind = true ∧
          f.rule.check (v.context t) f.symbol = .found f.message := by
  have happlication : ∀ {s : Symbol} {r : Rule}, (s, r) ∈ v.applications t ↔
      s ∈ t.symbols ∧ v.looksAt s = true ∧ r ∈ v.activeRules ∧ r.appliesTo s.kind = true := by
    intro s r
    rw [applications, List.mem_filter, List.pair_mem_product, eligibleSymbols_eq, List.mem_filter]
    simp only [and_assoc]
  -- A finding is an application whose verdict is one.
  rw [findings, List.mem_filterMap]
  refine ⟨?_, ?_⟩
  · rintro ⟨⟨s, r⟩, hp, hf⟩
    obtain ⟨message, hmessage, rfl⟩ := Option.map_eq_some_iff.mp hf
    obtain ⟨hs, hlooks, hr, happlies⟩ := happlication.mp hp
    exact ⟨hs, hlooks, hr, happlies, Verdict.finding?_eq_some_iff.mp hmessage⟩
  · rintro ⟨hs, hlooks, hr, happlies, hfound⟩
    refine ⟨(f.symbol, f.rule), happlication.mpr ⟨hs, hlooks, hr, happlies⟩, ?_⟩
    rw [Option.map_eq_some_iff]
    exact ⟨f.message, Verdict.finding?_eq_some_iff.mpr hfound, rfl⟩

/-! ### What a pass adds up to -/

/-- What a pass reports on a symbol of an eligible type. -/
def reportOnSymbol (ctx : RuleContext) (rules : List Rule) (s : Symbol) : Report :=
  if s.isIgnored then { ignored := 1 } else checkSymbol ctx rules s

/-- The report on one type, which is empty if the type is not eligible. -/
def reportOnType (v : Validator) (ctx : RuleContext) (t : TypeEntry) : Report :=
  if v.eligibleType t then checkType ctx v.activeRules t else {}

/-- A pass is one loop over the symbols of eligible types. -/
theorem checkTypes_eq (v : Validator) (ctx : RuleContext) :
    v.checkTypes ctx
      = .mergeAll ((ctx.table.symbols.filter fun s => v.eligibleType s.declaringType).map
          (reportOnSymbol ctx v.activeRules)) := by
  rw [SymbolTable.symbols, ← flatMap_symbols_filter]
  change Report.mergeAll (ctx.table.types.map (v.reportOnType ctx)) = _
  induction ctx.table.types with
  | nil => rfl
  | cons e types ih =>
    rw [List.map_cons, Report.mergeAll, ih, reportOnType]
    cases heligible : v.eligibleType e with
    | true =>
      rw [List.filter_cons_of_pos heligible, List.flatMap_cons, List.map_append,
        Report.mergeAll_append, if_pos rfl]
      rfl
    -- A type that is not eligible has an empty report, which is as if it had no symbols.
    | false =>
      rw [List.filter_cons_of_neg (by simp [heligible]), if_neg (by simp), Report.empty_merge]

/-- **Numbers of a pass** add up over the eligible symbols, if ignored symbols do not count. -/
theorem count_checkTypes {f : Report → Nat} (hempty : f {} = 0)
    (hmerge : ∀ a b : Report, f (a.merge b) = f a + f b) (hignored : f { ignored := 1 } = 0)
    (v : Validator) (ctx : RuleContext) :
    f (v.checkTypes ctx)
      = ((v.eligibleSymbols ctx.table).map fun s => f (checkSymbol ctx v.activeRules s)).sum := by
  rw [checkTypes_eq, Report.count_mergeAll hempty hmerge, eligibleSymbols, flatMap_symbols_filter,
    ← SymbolTable.symbols]
  -- An ignored symbol adds zero on the left and is left out on the right.
  induction ctx.table.symbols.filter fun s => v.eligibleType s.declaringType with
  | nil => rfl
  | cons s symbols ih =>
    rw [List.map_cons, List.map_cons, List.sum_cons, ih, reportOnSymbol]
    cases hcase : s.isIgnored with
    | true => rw [List.filter_cons_of_neg (by simp [hcase]), if_pos rfl, hignored, Nat.zero_add]
    | false =>
      rw [List.filter_cons_of_pos (by simp [hcase]), List.map_cons, List.sum_cons, if_neg (by simp)]

/-- Each eligible symbol is checked once, whatever the rules make of it. -/
theorem symbolsChecked_checkTypes (v : Validator) (ctx : RuleContext) :
    (v.checkTypes ctx).symbolsChecked = (v.eligibleSymbols ctx.table).length := by
  have hsum := count_checkTypes (f := Report.symbolsChecked) rfl (fun _ _ => rfl) rfl v ctx
  rw [hsum]
  change ((v.eligibleSymbols ctx.table).map fun _ => 1).sum = _
  simp

/-- The faults on one symbol. -/
theorem ruleFaults_checkSymbol (ctx : RuleContext) (rules : List Rule) (s : Symbol) :
    (checkSymbol ctx rules s).ruleFaults
      = rules.countP fun r => (r.check ctx s).isFault && r.appliesTo s.kind := by
  have hrule : ∀ r : Rule, (checkRule ctx s r).ruleFaults
      = ((r.check ctx s).isFault && r.appliesTo s.kind).toNat := by
    intro r
    rw [checkRule]
    cases happlies : r.appliesTo s.kind with
    | true => simp
    | false => simp
  -- The one that the symbol itself contributes has no faults.
  change (Report.mergeAll (rules.map (checkRule ctx s))).ruleFaults = _
  rw [Report.count_mergeAll (f := Report.ruleFaults) rfl (fun _ _ => rfl), List.map_map,
    ← sum_map_toNat]
  exact congrArg List.sum (List.map_congr_left fun r _ => hrule r)

/-- The faults of a pass are the applications that went wrong. A rule that goes wrong on several
symbols counts for each of them. -/
theorem ruleFaults_checkTypes (v : Validator) (t : SymbolTable) :
    (v.checkTypes (v.context t)).ruleFaults
      = (v.applications t).countP fun p => (v.verdict t p).isFault := by
  rw [count_checkTypes (f := Report.ruleFaults) rfl (fun _ _ => rfl) rfl, applications,
    List.countP_filter, List.product, List.countP_flatMap]
  refine congrArg List.sum (List.map_congr_left fun s _ => ?_)
  rw [ruleFaults_checkSymbol, Function.comp_apply, List.countP_map]
  rfl

/-- Before they are sorted, the violations of a pass are its findings. -/
theorem violations_checkTypes_eq_findings (v : Validator) (t : SymbolTable) :
    (v.checkTypes (v.context t)).violations = (v.findings t).map (Finding.violation v.weights) := by
  have hrule : ∀ (s : Symbol) (r : Rule), violationsOf (v.context t) r s
      = (if r.appliesTo s.kind then
          (v.verdict t (s, r)).finding?.map fun message =>
            Finding.violation v.weights ⟨s, r, message⟩
        else none).toList := by
    intro s r
    rw [violationsOf, checkRule]
    cases r.appliesTo s.kind with
    | false => rfl
    | true =>
      simp only [if_true]
      congr 2
      funext message
      exact violation_eq v.weights ⟨s, r, message⟩
  rw [violations_checkTypes, findings, applications, List.filterMap_filter, List.product,
    List.filterMap_flatMap, List.map_flatMap]
  -- Both go through the symbols and then through the rules.
  refine List.flatMap_congr fun s _ => ?_
  rw [List.filterMap_map, List.map_filterMap, List.filterMap_eq_flatMap_toList]
  refine List.flatMap_congr fun r _ => ?_
  rw [hrule]
  cases happlies : r.appliesTo s.kind with
  | false => simp [happlies]
  | true => simp [happlies, Function.comp_def]

/-- A symbol of an eligible type is either checked or ignored. -/
theorem checked_add_ignored_reportOnSymbol (ctx : RuleContext) (rules : List Rule) (s : Symbol) :
    (reportOnSymbol ctx rules s).symbolsChecked + (reportOnSymbol ctx rules s).ignored = 1 := by
  -- No rule counts a symbol as ignored.
  have hrules : (Report.mergeAll (rules.map (checkRule ctx s))).ignored = 0 := by
    rw [Report.count_mergeAll (f := Report.ignored) rfl (fun _ _ => rfl), List.map_map]
    apply List.sum_eq_zero_iff_forall_eq_nat.mpr
    intro n hn
    obtain ⟨r, -, rfl⟩ := List.mem_map.mp hn
    rw [Function.comp_apply, checkRule]
    split_ifs <;> rfl
  rw [reportOnSymbol]
  split_ifs with hignored
  · rfl
  · rw [checkSymbol, hrules]

/-- The symbols of a table are its types and their members, each of which is one symbol. -/
theorem length_symbols (t : SymbolTable) : t.symbols.length = t.symbolCount := by
  rw [SymbolTable.symbols, SymbolTable.symbolCount, SymbolTable.members]
  -- A type adds itself and its members to both sides.
  induction t.types with
  | nil => rfl
  | cons e types ih =>
    rw [List.flatMap_cons, List.flatMap_cons, List.length_append, List.length_append, ih,
      TypeEntry.symbols, List.length_cons, List.length_cons, List.length_map]
    omega

/-- **Every symbol is accounted for:** it is checked, or ignored, or left out with its type. -/
theorem accounted_checkTypes (v : Validator) (ctx : RuleContext) :
    (v.checkTypes ctx).symbolsChecked + (v.checkTypes ctx).ignored
        + (ctx.table.symbols.countP fun s =>
            s.declaringType.info.isCompilerGenerated || !v.eligible s.module.name)
      = ctx.table.symbolCount := by
  have hcounted : (v.checkTypes ctx).symbolsChecked + (v.checkTypes ctx).ignored
      = ctx.table.symbols.countP fun s => v.eligibleType s.declaringType := by
    have hmerge : ∀ a b : Report, (a.merge b).symbolsChecked + (a.merge b).ignored
        = a.symbolsChecked + a.ignored + (b.symbolsChecked + b.ignored) := by
      intro a b
      simp only [Report.merge]
      omega
    rw [checkTypes_eq, Report.count_mergeAll (f := fun r => r.symbolsChecked + r.ignored) rfl hmerge,
      List.map_map, List.countP_eq_length_filter]
    simp [Function.comp_def, checked_add_ignored_reportOnSymbol]
  -- The symbols that are left out are those whose type is not eligible.
  have hleft : (ctx.table.symbols.countP fun s =>
        s.declaringType.info.isCompilerGenerated || !v.eligible s.module.name)
      = ctx.table.symbols.countP fun s => !v.eligibleType s.declaringType := by
    refine List.countP_congr fun s _ => ?_
    rw [eligibleType, Bool.not_and, Bool.not_not]
    rfl
  rw [hcounted, hleft, ← length_symbols]
  simpa using (List.length_eq_countP_add_countP fun s : Symbol => v.eligibleType s.declaringType).symm

/-- Completes and sorts the report on all types. -/
def complete (v : Validator) (t : SymbolTable) (found : Report) : Report :=
  Report.sort { found with
    modulesScanned := t.modules.countP fun m => v.eligible m.name
    skippedTypes := t.skippedTypes
    skippedMembers := t.skippedMembers
    faults := t.skips.map Skip.message ++ found.faults }

/-- What a pass reports is the report on all types, completed. -/
theorem validate_eq (v : Validator) (t : SymbolTable) :
    v.validate t = v.complete t (v.checkTypes (v.context t)) := rfl

/-- **What it means that a report is exact** for a table. -/
structure ReportsExactly (v : Validator) (t : SymbolTable) (report : Report) : Prop where
  /-- The violations are the findings, sorted stably. -/
  violations : ∀ vs, StablySorts ((v.findings t).map (Finding.violation v.weights)) vs ↔
    vs = report.violations
  /-- The symbols that were checked are the eligible ones, -/
  symbolsChecked : report.symbolsChecked = (v.eligibleSymbols t).length
  /-- which a pass picks by their modules, their types and their markers. -/
  eligible : v.eligibleSymbols t = t.symbols.filter v.looksAt
  /-- A rule that goes wrong on a symbol counts once. -/
  ruleFaults : report.ruleFaults = (v.applications t).countP fun p => (v.verdict t p).isFault
  /-- Every symbol is checked, or ignored, or in a type that is not eligible. -/
  accounted : report.symbolsChecked + report.ignored
      + (t.symbols.countP fun s =>
          s.declaringType.info.isCompilerGenerated || !v.eligible s.module.name)
    = t.symbolCount

/-- **The report of a pass is exact.** Every part of this was shown for the report on all types, and
completing it only sorts the violations and fills in what the table knows. -/
theorem reportsExactly_validate (v : Validator) (t : SymbolTable) :
    v.ReportsExactly t (v.validate t) where
  violations := by
    intro vs
    rw [← violations_checkTypes_eq_findings]
    exact stablySorts_iff
  symbolsChecked := v.symbolsChecked_checkTypes (v.context t)
  eligible := v.eligibleSymbols_eq t
  ruleFaults := v.ruleFaults_checkTypes t
  accounted := v.accounted_checkTypes (v.context t)

/-- Up to order, the violations of a report are the findings. -/
theorem perm_findings (v : Validator) (t : SymbolTable) :
    (v.validate t).violations.Perm ((v.findings t).map (Finding.violation v.weights)) :=
  (((v.reportsExactly_validate t).violations _).mpr rfl).perm

end Validator

/-! ### Reductions -/

/-- A way to put the reports on types together, which keeps their order. -/
inductive Reduction where
  /-- Nothing is looked at. -/
  | idle
  /-- One type is looked at. -/
  | type (t : TypeEntry)
  /-- Two reports are made apart and then merged. -/
  | merge (first second : Reduction)

namespace Reduction

/-- The types that are looked at. -/
def types : Reduction → List TypeEntry
  | idle => []
  | type t => [t]
  | merge first second => first.types ++ second.types

/-- The report that is made. -/
def report (v : Validator) (ctx : RuleContext) : Reduction → Report
  | idle => {}
  | type t => v.reportOnType ctx t
  | merge first second => (first.report v ctx).merge (second.report v ctx)

/-- The tree of merges makes no difference. All that counts are the types at its leaves, from left to
right. -/
theorem report_eq (v : Validator) (ctx : RuleContext) (r : Reduction) :
    r.report v ctx = .mergeAll (r.types.map (v.reportOnType ctx)) := by
  induction r with
  | idle => rfl
  | type t => exact (Report.merge_empty _).symm
  | merge first second ihfirst ihsecond =>
    rw [report, ihfirst, ihsecond, types, List.map_append, Report.mergeAll_append]

end Reduction

/-- **A pass reports exactly the findings,** and the schedule does not matter: whatever the tree is by
which the reports on the types are put together, the completed report is the same. -/
theorem pass_reports_findings (v : Validator) (t : SymbolTable) (r : Reduction)
    (h : r.types = t.types) :
    v.complete t (r.report v (v.context t)) = v.validate t ∧
      v.ReportsExactly t (v.complete t (r.report v (v.context t))) := by
  have hreport : r.report v (v.context t) = v.checkTypes (v.context t) := by
    rw [r.report_eq, h]
    rfl
  rw [hreport, ← v.validate_eq t]
  exact ⟨rfl, v.reportsExactly_validate t⟩

/-! A pass over a type with one method and over a type that is ignored. -/

/-- A method, -/
def wordyMember : MemberEntry where
  id := 0
  type := 0
  member := { name := "Run", kind := .method }
  key := ⟨"Game.Loop", "Run", []⟩
  isIgnored := false

/-- the type that declares it, -/
def wordyType : TypeEntry where
  id := 0
  module := .empty "Game"
  parent := none
  fullName := "Game.Loop"
  info := { name := "Loop", nameSpace := "Game" }
  nested := []
  isIgnored := false
  members := [wordyMember]

/-- and a type with an ignore marker. -/
def ignoredType : TypeEntry where
  id := 1
  module := .empty "Game"
  parent := none
  fullName := "Game.Draft"
  info := { name := "Draft", nameSpace := "Game" }
  nested := []
  isIgnored := true
  members := []

/-- The table of the two. -/
def wordyTable : SymbolTable := ⟨[.empty "Game"], [wordyType, ignoredType], []⟩

/-- A rule that breaks down on every type. -/
def touchyRule : Rule where
  id := "touchy"
  kinds := [.type]
  check _ _ := .crashed none

/-- A rule that finds something on every method. -/
def wordyRule : Rule where
  id := "wordy"
  kinds := [.method]
  check _ _ := .found "Method is wordy"

/-- One rule breaks down on types, and another one finds something on methods. -/
def touchy : Validator where
  registry := ⟨[touchyRule, wordyRule]⟩

/-- The reports on the two types, with empty ones in between. -/
def lopsided : Reduction :=
  .merge (.merge .idle (.type wordyType)) (.merge .idle (.merge (.type ignoredType) .idle))

theorem findings_touchy :
    touchy.findings wordyTable = [⟨⟨wordyType, some wordyMember⟩, wordyRule, "Method is wordy"⟩] := by
  rfl

/-- The type and its method are checked and the other type is ignored. The rule that breaks down
counts once and does not keep the other one from its finding. -/
theorem pass_reports_findings_lopsided :
    lopsided.types = wordyTable.types ∧
      (touchy.validate wordyTable).symbolsChecked = 2 ∧
      (touchy.validate wordyTable).ignored = 1 ∧
      (touchy.validate wordyTable).ruleFaults = 1 ∧
      (touchy.validate wordyTable).violations
        = [{ rule := "wordy", declaringType := "Game.Loop", member := "Run",
             message := "Method is wordy", category := .other }] := by
  obtain ⟨heq, hexact⟩ := pass_reports_findings touchy wordyTable lopsided rfl
  rw [heq] at hexact
  -- The numbers are computed from the symbols and applications, the violations from the one
  -- finding.
  refine ⟨rfl, ?_, ?_, ?_, ?_⟩
  · rw [hexact.symbolsChecked]
    decide +kernel
  · decide +kernel
  · rw [hexact.ruleFaults]
    decide +kernel
  · refine ((hexact.violations _).mp ?_).symm
    have hcategory : Category.ofMessage "Method is wordy" = .other := by decide +kernel
    rw [findings_touchy, List.map_singleton, Finding.violation, hcategory]
    exact ⟨.refl _, List.pairwise_singleton _ _, fun _ => rfl⟩

end CilLint
