import Mathlib.Data.List.Pairwise
import Mathlib.Data.List.Perm.Basic

/-!
# Sorting by a key

Reports are sorted stably by a key that does not tell all violations apart. `sortOn` is this sort for
anything that has such a key, so that a list can be sorted together with what its elements come from.

A sorted list is determined by its *classes*: the elements with one key, in the order in which they
stand (`eq_of_classes`). A stable sort leaves every class alone (`filter_class_sortOn`). From these
two facts it follows that sorting commutes with leaving elements out (`filter_sortOn`), that two lists
with the same classes come out the same, however their classes are mixed (`sortOn_eq_of_classes`), and
that parts of a list may be sorted before the whole (`sortOn_flatMap_sortOn`).
-/

namespace CilLint

section StableSort

variable {α β γ : Type} {cmp : β → β → Ordering} {key : α → β}

/-- A list sorted by a key. Elements with one key stay in their order. -/
def sortOn (cmp : β → β → Ordering) (key : α → β) (l : List α) : List α :=
  l.mergeSort fun a b => (cmp (key a) (key b)).isLE

theorem perm_sortOn (l : List α) : (sortOn cmp key l).Perm l := List.mergeSort_perm _ _

@[simp] theorem sortOn_nil : sortOn cmp key [] = [] := List.mergeSort_nil

@[simp] theorem sortOn_singleton (a : α) : sortOn cmp key [a] = [a] := List.mergeSort_singleton a

/-- Sorting goes by the keys alone, whatever the elements are mapped to. So findings can be sorted in
place of their violations. -/
theorem map_sortOn {key' : γ → β} {f : α → γ} {l : List α} (h : ∀ a ∈ l, key' (f a) = key a) :
    (sortOn cmp key l).map f = sortOn cmp key' (l.map f) := by
  apply List.map_mergeSort
  intro a ha b hb
  rw [h a ha, h b hb]

variable [Std.TransCmp cmp]

theorem isLE_total (a b : α) :
    ((cmp (key a) (key b)).isLE || (cmp (key b) (key a)).isLE) = true := by
  have hswap : cmp (key b) (key a) = (cmp (key a) (key b)).swap := Std.OrientedCmp.eq_swap
  rw [hswap]
  cases cmp (key a) (key b) <;> rfl

/-- Keys that come before each other are equal, as far as the order can tell. -/
theorem eq_of_isLE_of_isLE {a b : β} (hab : (cmp a b).isLE = true) (hba : (cmp b a).isLE = true) :
    cmp a b = .eq := by
  have hswap : cmp b a = (cmp a b).swap := Std.OrientedCmp.eq_swap
  rw [hswap] at hba
  cases h : cmp a b with
  | eq => rfl
  | lt => simp [h] at hba
  | gt => simp [h] at hab

theorem pairwise_sortOn (l : List α) :
    (sortOn cmp key l).Pairwise fun a b => (cmp (key a) (key b)).isLE = true :=
  List.pairwise_mergeSort (fun _ _ _ => Std.TransCmp.isLE_trans) isLE_total l

/-- **Sorting keeps each class** as it is. This is what stability means, said of lists and not of
pairs. -/
theorem filter_class_sortOn (c : β) (l : List α) :
    ((sortOn cmp key l).filter fun a => cmp c (key a) = .eq)
      = l.filter fun a => cmp c (key a) = .eq := by
  -- A class is in order already, so it comes out as a sublist. It is all of the class, because there
  -- are no more elements with this key than before.
  have hclass : (l.filter fun a => cmp c (key a) = .eq).Pairwise
      fun a b => (cmp (key a) (key b)).isLE = true := by
    apply List.pairwise_of_forall_mem_list
    intro a ha b hb
    have hca : cmp c (key a) = .eq := by simpa using (List.mem_filter.mp ha).2
    have hcb : cmp c (key b) = .eq := by simpa using (List.mem_filter.mp hb).2
    rw [← Std.TransCmp.congr_left hca, hcb]
    rfl
  have hsublist : (l.filter fun a => cmp c (key a) = .eq).Sublist (sortOn cmp key l) :=
    List.sublist_mergeSort (fun _ _ _ => Std.TransCmp.isLE_trans) isLE_total hclass
      List.filter_sublist
  have hfiltered := hsublist.filter fun a => cmp c (key a) = .eq
  rw [List.filter_filter] at hfiltered
  simp only [Bool.and_self] at hfiltered
  exact (hfiltered.eq_of_length ((perm_sortOn l).filter _).length_eq.symm).symm

/-- **Sorted lists are equal if they have the same classes.** The order of classes is given by the
keys, and the order within each of them by assumption. -/
theorem eq_of_classes {l l' : List α}
    (hl : l.Pairwise fun a b => (cmp (key a) (key b)).isLE = true)
    (hl' : l'.Pairwise fun a b => (cmp (key a) (key b)).isLE = true)
    (hclasses : ∀ c : β,
      (l.filter fun a => cmp c (key a) = .eq) = l'.filter fun a => cmp c (key a) = .eq) :
    l = l' := by
  have hself : ∀ c : β, cmp c c = .eq := fun _ => Std.ReflCmp.compare_self
  -- What is in one list is in the other, among the elements with its key.
  have hmem : ∀ {m m' : List α}, (∀ c : β,
      (m.filter fun a => cmp c (key a) = .eq) = m'.filter fun a => cmp c (key a) = .eq) →
        ∀ a ∈ m, a ∈ m' := by
    intro m m' h a ha
    have hfilter : a ∈ m.filter fun b => cmp (key a) (key b) = .eq :=
      List.mem_filter.mpr ⟨ha, by simp [hself]⟩
    rw [h (key a)] at hfilter
    exact (List.mem_filter.mp hfilter).1
  -- The lists are compared from the front.
  induction l generalizing l' with
  | nil =>
    cases l' with
    | nil => rfl
    | cons b l' =>
      exact absurd (hmem (fun c => (hclasses c).symm) b List.mem_cons_self) List.not_mem_nil
  | cons a l ih =>
    cases l' with
    | nil => exact absurd (hmem hclasses a List.mem_cons_self) List.not_mem_nil
    | cons b l' =>
      obtain ⟨hal, htail⟩ := List.pairwise_cons.mp hl
      obtain ⟨hbl, htail'⟩ := List.pairwise_cons.mp hl'
      -- Each of the two heads comes before the other, so they have one key, and then they are equal.
      have hba : (cmp (key b) (key a)).isLE = true := by
        rcases List.mem_cons.mp (hmem hclasses a List.mem_cons_self) with rfl | ha
        · rw [hself]
          rfl
        · exact hbl a ha
      have hab : (cmp (key a) (key b)).isLE = true := by
        rcases List.mem_cons.mp (hmem (fun c => (hclasses c).symm) b List.mem_cons_self) with rfl | hb
        · rw [hself]
          rfl
        · exact hal b hb
      have hkey : cmp (key a) (key b) = .eq := eq_of_isLE_of_isLE hab hba
      have hheads := hclasses (key a)
      rw [List.filter_cons_of_pos (by simp [hself]), List.filter_cons_of_pos (by simp [hkey]),
        List.cons.injEq] at hheads
      obtain rfl := hheads.1
      -- Without the common head the lists still have the same classes.
      congr 1
      refine ih htail htail' fun c => ?_
      have htails := hclasses c
      rw [List.filter_cons, List.filter_cons] at htails
      split_ifs at htails with hc
      · exact (List.cons.inj htails).2
      · exact htails

/-- Lists with the same classes are sorted into one list. How the classes are mixed with each other
does not matter. -/
theorem sortOn_eq_of_classes {l l' : List α}
    (h : ∀ c : β,
      (l.filter fun a => cmp c (key a) = .eq) = l'.filter fun a => cmp c (key a) = .eq) :
    sortOn cmp key l = sortOn cmp key l' := by
  refine eq_of_classes (pairwise_sortOn l) (pairwise_sortOn l') fun c => ?_
  rw [filter_class_sortOn, filter_class_sortOn, h c]

/-- **Sorting the parts of a list** before the whole makes no difference. -/
theorem sortOn_flatMap_sortOn (f : γ → List α) (l : List γ) :
    sortOn cmp key (l.flatMap fun a => sortOn cmp key (f a)) = sortOn cmp key (l.flatMap f) := by
  refine sortOn_eq_of_classes fun c => ?_
  rw [List.filter_flatMap, List.filter_flatMap]
  exact List.flatMap_congr fun a _ => filter_class_sortOn c (f a)

/-- **Leaving elements out commutes with sorting.** What is left out has no influence on where the
others stand. -/
theorem filter_sortOn (p : α → Bool) (l : List α) :
    (sortOn cmp key l).filter p = sortOn cmp key (l.filter p) := by
  have hsorted : ((sortOn cmp key l).filter p).Pairwise
      fun a b => (cmp (key a) (key b)).isLE = true :=
    (pairwise_sortOn l).sublist List.filter_sublist
  refine eq_of_classes hsorted (pairwise_sortOn _) fun c => ?_
  -- Each class loses the same elements, since it makes no difference which filter goes first.
  calc _ = ((sortOn cmp key l).filter fun a => cmp c (key a) = .eq).filter p := List.filter_comm _ _ _
    _ = (l.filter fun a => cmp c (key a) = .eq).filter p := by rw [filter_class_sortOn]
    _ = (l.filter p).filter fun a => cmp c (key a) = .eq := List.filter_comm _ _ _
    _ = _ := (filter_class_sortOn c _).symm

/-- A list whose keys differ is sorted in one way, however it stands before. Each class then has one
element at most. -/
theorem sortOn_eq_of_perm {l l' : List α} (hperm : l.Perm l')
    (hkeys : l.Pairwise fun a b => cmp (key a) (key b) ≠ .eq) :
    sortOn cmp key l = sortOn cmp key l' := by
  have hsymm : Std.Symm fun a b : α => cmp (key a) (key b) ≠ .eq :=
    ⟨fun _ _ hne heq => hne (Std.OrientedCmp.eq_symm heq)⟩
  have hsorted : (sortOn cmp key l).Perm (sortOn cmp key l') :=
    (perm_sortOn l).trans (hperm.trans (perm_sortOn l').symm)
  have hkeys' : (sortOn cmp key l).Pairwise fun a b => cmp (key a) (key b) ≠ .eq :=
    hkeys.perm (perm_sortOn l).symm (hsymm.symm _ _)
  refine hsorted.eq_of_pairwise ?_ (pairwise_sortOn l) (pairwise_sortOn l')
  intro a b ha hb hab hba
  by_contra hne
  exact hkeys'.forall ha (hsorted.mem_iff.mpr hb) hne (eq_of_isLE_of_isLE hab hba)

end StableSort

end CilLint
