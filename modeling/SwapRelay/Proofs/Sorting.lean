import Mathlib.Data.List.Sort
import SwapRelay.Pool

/-!
# Sorting by keys

A sorted list is known by its items, as long as no two of them have the same key: `sort_eq_of_perm`.
With equal keys it is not, since the sort is stable and keeps them in the order in which they came,
`filter_sort`. What is sorted already stays as it is, `sort_eq_self`.
-/

namespace SwapRelay.Sorting

variable {α : Type}

theorem insert_eq_orderedInsert (le : α → α → Bool) (a : α) (l : List α) :
    insert le a l = l.orderedInsert (le · ·) a := by
  induction l with
  | nil => rfl
  | cons b rest ih => rw [insert, List.orderedInsert_cons, ih]

theorem sort_eq_insertionSort (le : α → α → Bool) (l : List α) :
    sort le l = l.insertionSort (le · ·) := by
  induction l with
  | nil => rfl
  | cons a rest ih => rw [sort, List.insertionSort_cons, ih, insert_eq_orderedInsert]

theorem sort_map {β : Type} (le : β → β → Bool) (f : α → β) (l : List α) :
    sort le (l.map f) = (sort (fun a b => le (f a) (f b)) l).map f := by
  rw [sort_eq_insertionSort, sort_eq_insertionSort]
  exact (List.map_insertionSort _ _ f l fun _ _ _ _ => Iff.rfl).symm

theorem pairwise_sort (key : α → Int) (l : List α) :
    (sort (fun a b => decide (key a ≤ key b)) l).Pairwise (key · ≤ key ·) := by
  let le : α → α → Bool := fun a b => decide (key a ≤ key b)
  have total : Std.Total (le · ·) := ⟨fun a b => by
    simp only [le, decide_eq_true_eq]
    exact Int.le_total (key a) (key b)⟩
  have trans : IsTrans α (le · ·) := ⟨fun a b c hab hbc => by
    simp only [le, decide_eq_true_eq] at *
    exact Int.le_trans hab hbc⟩
  have hsorted := List.pairwise_insertionSort (le · ·) l
  rw [← sort_eq_insertionSort] at hsorted
  exact hsorted.imp of_decide_eq_true

/-- The order of the items before the sort does not matter, if their keys tell them apart. -/
theorem sort_eq_of_perm {key : α → Int} {l m : List α} (h : l.Perm m)
    (hkey : ∀ a ∈ l, ∀ b ∈ l, key a = key b → a = b) :
    sort (fun a b => decide (key a ≤ key b)) l = sort (fun a b => decide (key a ≤ key b)) m := by
  have hl := sort_perm (fun a b => decide (key a ≤ key b)) l
  have hm := sort_perm (fun a b => decide (key a ≤ key b)) m
  refine List.Perm.eq_of_pairwise ?_ (pairwise_sort key l) (pairwise_sort key m)
    (hl.trans (h.trans hm.symm))
  intro a b ha hb hab hba
  exact hkey a (hl.mem_iff.1 ha) b (h.mem_iff.2 (hm.mem_iff.1 hb)) (Int.le_antisymm hab hba)

theorem sort_eq_self {key : α → Int} {l : List α} (h : l.Pairwise (key · ≤ key ·)) :
    sort (fun a b => decide (key a ≤ key b)) l = l := by
  rw [sort_eq_insertionSort]
  exact List.Pairwise.insertionSort_eq (h.imp decide_eq_true)

/-- Items of one key keep their order. -/
theorem filter_sort (key : α → Int) (l : List α) (k : Int) :
    (sort (fun a b => decide (key a ≤ key b)) l).filter (key · = k) = l.filter (key · = k) := by
  have hequal : (l.filter (key · = k)).Pairwise fun a b => decide (key a ≤ key b) = true := by
    apply List.pairwise_of_forall_mem_list
    intro a ha b hb
    have hka := of_decide_eq_true (List.mem_filter.1 ha).2
    have hkb := of_decide_eq_true (List.mem_filter.1 hb).2
    rw [hka, hkb]
    exact decide_eq_true (Int.le_refl k)
  have hsub : (l.filter (key · = k)).Sublist (sort (fun a b => decide (key a ≤ key b)) l) := by
    rw [sort_eq_insertionSort]
    exact List.sublist_insertionSort hequal List.filter_sublist
  have hsub := hsub.filter (key · = k)
  rw [List.filter_filter] at hsub
  simp only [Bool.and_self] at hsub
  exact (hsub.eq_of_length ((sort_perm _ l).filter _).length_eq.symm).symm

end SwapRelay.Sorting
