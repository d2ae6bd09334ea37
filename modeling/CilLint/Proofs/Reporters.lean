import CilLint.Proofs.PrintedReport
import Mathlib.Algebra.Ring.Nat
import Mathlib.Data.List.Nodup
import Mathlib.Data.List.Perm.Basic

/-!
# Reporters account for every violation

A report comes out in two ways: in groups, one for each category that occurs, and in numbers. Groups
are picked from the violations by going through the list of categories. Numbers are counted into a
map that is ordered by category. The two have nothing in common but the categories themselves, so
that they fit together is a fact about these:

* the list of categories has all of them, so no violation is lost (`perm_flatten_groups`),
* and it has them in their order, which is that of the map (`counts_eq_map_groups`).

What is printed of the groups and of the numbers is said in `Proofs.PrintedReport`. Put together
(`Render.Accounted`): the text for people has a block for each group with all its violations, the JSON
text has an entry for each of the same groups and for each violation, and both have the verdict that
there is no group.
-/

namespace CilLint

/-! ### Categories -/

namespace Category

/-- Every category is listed. So looking at the listed ones, as groups do, looks at every
violation. -/
theorem mem_all (c : Category) : c ∈ all := by
  cases c <;> decide

theorem pairwise_all : all.Pairwise fun c d => compare c d = .lt := by decide

theorem nodup_all : all.Nodup := by decide

/-- The name of a category tells it apart from all others. A reader of what is printed can go back
from the name to the category. -/
theorem ofName?_name (c : Category) : ofName? c.name = some c := by
  cases c <;> decide

instance : Std.TransOrd Category where
  eq_swap {c d} := by cases c <;> cases d <;> rfl
  isLE_trans {c d e} := by cases c <;> cases d <;> cases e <;> decide

instance : Std.LawfulEqOrd Category where
  eq_of_compare {c d} := by cases c <;> cases d <;> decide

end Category

namespace Report

/-! ### Groups -/

/-- A group has the violations of its category, and there is none without violations. -/
theorem mem_groups_iff {r : Report} {c : Category} {vs : List Violation} :
    (c, vs) ∈ r.groups ↔ vs = r.ofCategory c ∧ vs ≠ [] := by
  rw [groups, List.mem_filter, List.mem_map]
  constructor
  · rintro ⟨⟨d, -, heq⟩, hne⟩
    obtain ⟨rfl, rfl⟩ := Prod.mk.inj heq
    exact ⟨rfl, by simpa using hne⟩
  -- The category is on the list whatever it is.
  · rintro ⟨rfl, hne⟩
    exact ⟨⟨c, c.mem_all, rfl⟩, by simpa using hne⟩

/-- Picking one category after another picks what is in any of them. No category may be listed twice,
as its violations would be picked twice. -/
theorem perm_flatMap_ofCategory (r : Report) {cs : List Category} (h : cs.Nodup) :
    (cs.flatMap r.ofCategory).Perm (r.violations.filter fun v => cs.contains v.category) := by
  induction cs with
  | nil => simp
  | cons c cs ih =>
    obtain ⟨hc, hnodup⟩ := List.nodup_cons.mp h
    have hfirst : (r.violations.filter fun v => (c :: cs).contains v.category).filter
        (fun v => v.category == c) = r.ofCategory c := by
      rw [List.filter_filter, ofCategory]
      refine List.filter_congr fun v _ => ?_
      by_cases hv : v.category = c
      · simp [hv]
      · simp [hv]
    -- What is left is in one of the other categories, since `c` is none of them.
    have hothers : (r.violations.filter fun v => (c :: cs).contains v.category).filter
        (fun v => !(v.category == c)) = r.violations.filter fun v => cs.contains v.category := by
      rw [List.filter_filter]
      refine List.filter_congr fun v _ => ?_
      by_cases hv : v.category = c
      · simp [hv, hc]
      · simp [hv]
    have hsplit := List.filter_append_perm (fun v : Violation => v.category == c)
      (r.violations.filter fun v => (c :: cs).contains v.category)
    rw [hfirst, hothers] at hsplit
    rw [List.flatMap_cons]
    exact ((ih hnodup).append_left _).trans hsplit

/-- Leaving out empty groups loses nothing. -/
theorem flatten_groups (r : Report) :
    (r.groups.map Prod.snd).flatten = Category.all.flatMap r.ofCategory := by
  -- The groups that are left out are empty.
  have hgroups : r.groups.map Prod.snd
      = (Category.all.map r.ofCategory).filter fun vs => !vs.isEmpty := by
    rw [groups, List.filter_map, List.filter_map, List.map_map]
    rfl
  rw [hgroups, List.flatten_filter_not_isEmpty, List.flatMap_def]

/-- **No violation is lost in groups,** and none is in two of them: put together, the groups are the
violations in another order. -/
theorem perm_flatten_groups (r : Report) : (r.groups.map Prod.snd).flatten.Perm r.violations := by
  have hall : (r.violations.filter fun v => Category.all.contains v.category) = r.violations := by
    rw [List.filter_eq_self]
    intro v _
    simpa using v.category.mem_all
  rw [flatten_groups]
  exact (r.perm_flatMap_ofCategory Category.nodup_all).trans (.of_eq hall)

/-- There is no group if and only if there is no violation. The verdict looks at the violations, and
what is printed shows groups. -/
theorem groups_eq_nil_iff {r : Report} : r.groups = [] ↔ r.violations = [] := by
  constructor
  · intro h
    have hperm := r.perm_flatten_groups
    rw [h] at hperm
    exact hperm.symm.eq_nil
  · intro h
    rw [List.eq_nil_iff_forall_not_mem]
    rintro ⟨c, vs⟩ hg
    obtain ⟨heq, hne⟩ := mem_groups_iff.mp hg
    rw [ofCategory, h] at heq
    exact hne heq

/-! ### Numbers -/

/-- Counting a violation changes the number of its category only, and gives it one if it had none. -/
theorem getElem?_countCategory (counts : Std.TreeMap Category Nat) (c d : Category) :
    (countCategory counts c)[d]?
      = if c = d then some ((counts[d]?).getD 0 + 1) else counts[d]? := by
  rw [countCategory, Std.TreeMap.getElem?_insert, Std.TreeMap.getD_eq_getD_getElem?]
  simp only [Std.compare_eq_iff_eq]
  by_cases h : c = d
  · rw [if_pos h, if_pos h, h]
  · rw [if_neg h, if_neg h]

/-- **What is counted into a map** comes on top of what was there. A category that does not occur gets
no entry, not even one of zero. -/
theorem getElem?_foldl_countCategory (vs : List Violation) (counts : Std.TreeMap Category Nat)
    (c : Category) :
    (vs.foldl (fun counts v => countCategory counts v.category) counts)[c]?
      = if (vs.filter fun v => v.category == c) = [] then counts[c]?
        else some ((counts[c]?).getD 0 + (vs.filter fun v => v.category == c).length) := by
  induction vs generalizing counts with
  | nil => rfl
  | cons v vs ih =>
    rw [List.foldl_cons, ih, getElem?_countCategory]
    by_cases hv : v.category = c
    · rw [if_pos hv, List.filter_cons_of_pos (by simp [hv]), if_neg (List.cons_ne_nil _ _),
        List.length_cons]
      -- A category that does not occur again keeps the number that was just put in.
      split_ifs with hnone
      · rw [hnone, List.length_nil]
      · rw [Option.getD_some, Nat.add_assoc, Nat.add_comm 1]
    · rw [if_neg hv, List.filter_cons_of_neg (by simp [hv])]

/-- A category has a number if it occurs, and this is how often it does. -/
theorem mem_counts_iff {r : Report} {c : Category} {n : Nat} :
    (c, n) ∈ r.counts ↔ n = (r.ofCategory c).length ∧ r.ofCategory c ≠ [] := by
  rw [counts, Std.TreeMap.mem_toList_iff_getElem?_eq_some, getElem?_foldl_countCategory,
    ← ofCategory, Std.TreeMap.getElem?_emptyc, Option.getD_none, Nat.zero_add]
  split_ifs with h
  · simp [h]
  · simp [h, eq_comm]

/-- The same is true of the sizes of the groups. -/
theorem mem_map_groups_iff {r : Report} {c : Category} {n : Nat} :
    (c, n) ∈ r.groups.map (fun g => (g.1, g.2.length)) ↔
      n = (r.ofCategory c).length ∧ r.ofCategory c ≠ [] := by
  rw [List.mem_map]
  constructor
  · rintro ⟨⟨d, vs⟩, hg, heq⟩
    obtain ⟨rfl, rfl⟩ := Prod.mk.inj heq
    obtain ⟨rfl, hne⟩ := mem_groups_iff.mp hg
    exact ⟨rfl, hne⟩
  · rintro ⟨rfl, hne⟩
    exact ⟨(c, r.ofCategory c), mem_groups_iff.mpr ⟨rfl, hne⟩, rfl⟩

/-- Groups stand in the order of their categories. -/
theorem pairwise_groups (r : Report) : r.groups.Pairwise fun a b => compare a.1 b.1 = .lt := by
  refine List.Pairwise.filter _ ?_
  rw [List.pairwise_map]
  exact Category.pairwise_all

theorem pairwise_map_groups (r : Report) :
    (r.groups.map fun g => (g.1, g.2.length)).Pairwise fun a b => compare a.1 b.1 = .lt := by
  rw [List.pairwise_map]
  exact r.pairwise_groups

/-- **The numbers are those of the groups,** in the same order. One list comes from a map and the
other from filters, and each is ordered by category without repetition, so that it is enough to
compare their entries. -/
theorem counts_eq_map_groups (r : Report) : r.counts = r.groups.map fun g => (g.1, g.2.length) := by
  have hcounts : r.counts.Pairwise fun a b => compare a.1 b.1 = .lt :=
    Std.TreeMap.ordered_keys_toList
  have hnodup {l : List (Category × Nat)} (h : l.Pairwise fun a b => compare a.1 b.1 = .lt) :
      l.Nodup := by
    refine h.imp ?_
    rintro a _ hlt rfl
    exact Std.OrientedCmp.not_lt_of_lt hlt hlt
  -- Both lists are ordered and have the same entries.
  have hperm : r.counts.Perm (r.groups.map fun g => (g.1, g.2.length)) := by
    rw [List.perm_ext_iff_of_nodup (hnodup hcounts) (hnodup r.pairwise_map_groups)]
    rintro ⟨c, n⟩
    rw [mem_counts_iff, mem_map_groups_iff]
  refine List.Perm.eq_of_pairwise ?_ hcounts r.pairwise_map_groups hperm
  intro a b _ _ hab hba
  exact absurd hba (Std.OrientedCmp.not_lt_of_lt hab)

/-- The sizes of the groups add up to the number of violations. -/
theorem sum_length_groups (r : Report) :
    (r.groups.map fun g => g.2.length).sum = r.violations.length := by
  -- The length of the groups put together is counted in two ways.
  rw [← r.perm_flatten_groups.length_eq, List.length_flatten, List.map_map]
  rfl

end Report

/-! ### What is printed -/

namespace Render

/-- **What is printed of a report accounts for all its violations.** The two texts are made of the same
groups and the same verdict, the groups have every violation once, and the verdict is good if and only
if there is no group. -/
structure Accounted (colored : Bool) (path : String) (elapsed : Duration) (r : Report)
    (groups : List (Category × List Violation)) (passed : Bool) : Prop where
  /-- The text for people shows the groups in their order, each with its category, its size and the
  rule, symbol and message of each of its violations, and the verdict. -/
  pretty : ReportText colored path elapsed r groups passed (reportPretty colored path elapsed r)
  /-- The JSON text has the verdict and the categories and sizes of the groups, in the same order. After
  them it has all violations. -/
  json : reportJson path elapsed r = jsonText path elapsed r groups passed
  /-- The texts of violations stand in it in quotation marks, and nothing of them is lost. -/
  quoted : ∀ s, Quoted s (Json.stringText s)
  /-- A group leaves its violations in the order of the report. -/
  sublist : ∀ g ∈ groups, g.2.Sublist r.violations
  /-- A group is not empty and has violations of its category only. -/
  category : ∀ g ∈ groups, g.2 ≠ [] ∧ ∀ v ∈ g.2, v.category = g.1
  /-- No category has two groups. -/
  ordered : groups.Pairwise fun a b => compare a.1 b.1 = .lt
  /-- The name under which a group is printed is that of no other category. -/
  named : ∀ g ∈ groups, Category.ofName? g.1.name = some g.1
  /-- Every violation is in one group. -/
  perm : (groups.map Prod.snd).flatten.Perm r.violations
  sum : (groups.map fun g => g.2.length).sum = r.violations.length
  passed_iff : passed = true ↔ groups = []

end Render

/-- **Reporters account for every violation.** The groups that are printed for people have all
violations, each in the group of its category and in the order of the report. What is printed for
machines has the numbers of these groups and all violations, and both have the verdict that there is
no group. -/
theorem reporters_account_for_violations (colored : Bool) (path : String) (elapsed : Duration)
    (r : Report) : Render.Accounted colored path elapsed r r.groups (!r.failed) where
  pretty := Render.reportText_reportPretty colored path elapsed r
  json := Render.reportJson_eq_jsonText path elapsed r.counts_eq_map_groups
  quoted := Render.quoted_stringText
  sublist := by
    rintro ⟨c, vs⟩ hg
    obtain ⟨rfl, -⟩ := Report.mem_groups_iff.mp hg
    exact List.filter_sublist
  category := by
    rintro ⟨c, vs⟩ hg
    obtain ⟨rfl, hne⟩ := Report.mem_groups_iff.mp hg
    refine ⟨hne, ?_⟩
    intro v hv
    exact beq_iff_eq.mp (List.mem_filter.mp hv).2
  ordered := r.pairwise_groups
  named := fun g _ => g.1.ofName?_name
  perm := r.perm_flatten_groups
  sum := r.sum_length_groups
  passed_iff := by
    -- A report fails if it has a violation, and then there is a group.
    rw [Report.groups_eq_nil_iff, Report.failed, Bool.not_not, List.isEmpty_iff]

end CilLint
