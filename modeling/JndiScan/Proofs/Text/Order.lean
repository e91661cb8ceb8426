/-
The order of texts by their code points: it is total, and a list of items by a text of each shows
these texts in order, so that it is told by them alone.
-/
import JndiScan.Text.Basic
import Mathlib.Data.List.Sort

namespace JndiScan.Text

theorem le_eq_true_iff (a b : Text) : le a b = true ↔ (compare a b).isLE = true := by
  unfold le
  cases compare a b <;> decide

theorem le_trans (a b c : Text) (hab : le a b = true) (hbc : le b c = true) : le a c = true := by
  rw [le_eq_true_iff] at *
  exact Std.TransCmp.isLE_trans hab hbc

theorem le_total (a b : Text) : (le a b || le b a) = true := by
  have hswap : compare a b = (compare b a).swap := Std.OrientedCmp.eq_swap
  rw [Bool.or_eq_true, le_eq_true_iff, le_eq_true_iff, hswap]
  cases compare b a <;> decide

/-- Texts in order that are all different are strictly in order. -/
theorem lt_of_le_of_ne {a b : Text} (h : le a b = true) (hne : a ≠ b) : compare a b = .lt := by
  rw [le_eq_true_iff] at h
  cases hcompare : compare a b with
  | lt => rfl
  | eq => exact absurd (Std.LawfulEqCmp.eq_of_compare hcompare) hne
  | gt =>
    rw [hcompare] at h
    cases h

theorem le_antisymm {a b : Text} (hab : le a b = true) (hba : le b a = true) : a = b := by
  by_contra hne
  have hlt : compare a b = .lt := lt_of_le_of_ne hab hne
  have hswap : compare b a = (compare a b).swap := Std.OrientedCmp.eq_swap
  rw [le_eq_true_iff, hswap, hlt] at hba
  cases hba

/-! ## Items in the order of their texts -/

variable {α : Type} {key : α → Text}

theorem sortBy_perm (key : α → Text) (xs : List α) : (sortBy key xs).Perm xs :=
  List.mergeSort_perm ..

theorem pairwise_sortBy (key : α → Text) (xs : List α) :
    (sortBy key xs).Pairwise fun a b => le (key a) (key b) = true := by
  have htrans : ∀ a b c, le (key a) (key b) = true → le (key b) (key c) = true →
      le (key a) (key c) = true := fun a b c => le_trans (key a) (key b) (key c)
  exact List.pairwise_mergeSort htrans (fun a b => le_total (key a) (key b)) xs

/-- The texts of items in order are these texts in order. -/
theorem map_sortBy (key : α → Text) (xs : List α) :
    (sortBy key xs).map key = sortBy id (xs.map key) :=
  List.map_mergeSort fun _ _ _ _ => rfl

/-- Texts in order are told by which texts they are. -/
theorem sortBy_id_congr {xs ys : List Text} (h : xs.Perm ys) : sortBy id xs = sortBy id ys := by
  refine List.Perm.eq_of_pairwise (fun a b _ _ => le_antisymm) (pairwise_sortBy id xs)
    (pairwise_sortBy id ys) ?_
  exact (sortBy_perm id xs).trans (h.trans (sortBy_perm id ys).symm)

/-- Items with different texts are told in order by which items they are. -/
theorem sortBy_congr {xs ys : List α} (h : xs.Perm ys) (hkeys : (xs.map key).Nodup) :
    sortBy key xs = sortBy key ys := by
  refine List.Perm.eq_of_pairwise (fun a b ha hb hab hba => ?_) (pairwise_sortBy key xs)
    (pairwise_sortBy key ys) ((sortBy_perm key xs).trans (h.trans (sortBy_perm key ys).symm))
  have hxs : a ∈ xs ∧ b ∈ xs :=
    ⟨(sortBy_perm key xs).mem_iff.1 ha, h.mem_iff.2 ((sortBy_perm key ys).mem_iff.1 hb)⟩
  exact List.inj_on_of_nodup_map hkeys hxs.1 hxs.2 (le_antisymm hab hba)

/-- Items with different texts are strictly in order. -/
theorem pairwise_lt_sortBy {xs : List α} (hkeys : (xs.map key).Nodup) :
    ((sortBy key xs).map key).Pairwise (compare · · = .lt) := by
  have hnodup : ((sortBy key xs).map key).Nodup := ((sortBy_perm key xs).map key).nodup_iff.2 hkeys
  have hle : ((sortBy key xs).map key).Pairwise fun a b => le a b = true :=
    List.pairwise_map.2 (pairwise_sortBy key xs)
  exact (hle.and hnodup).imp fun ⟨hle, hne⟩ => lt_of_le_of_ne hle hne

/-- What is made of items is sorted by sorting the items. -/
theorem sortBy_map {β : Type} (f : α → β) (key : β → Text) (xs : List α) :
    sortBy key (xs.map f) = (sortBy (fun x => key (f x)) xs).map f :=
  (List.map_mergeSort (f := f) fun _ _ _ _ => rfl).symm

end JndiScan.Text
