import Mathlib.Data.Finset.Lattice.Fold

/-!
# The best of what somebody holds

Items have values, and some have a holder.  The best value among the items of a
holder changes when an item changes hands or its value.
-/

namespace Mmog.Ruby

variable {ι υ α : Type*} [DecidableEq υ] [LinearOrder α] [OrderBot α]

/-- The best value of the items that the holder has, `⊥` without any. -/
def best (items : Finset ι) (holder : ι → Option υ) (value : ι → α) (u : υ) : α :=
  (items.filter fun i => holder i = some u).sup value

variable {items : Finset ι} {holder : ι → Option υ} {value : ι → α} {i : ι} {u v : υ} {a : α}

theorem best_le_iff : best items holder value u ≤ a ↔ ∀ i ∈ items, holder i = some u → value i ≤ a := by
  simp only [best, Finset.sup_le_iff, Finset.mem_filter, and_imp]

theorem le_best (hitem : i ∈ items) (hholder : holder i = some u) : value i ≤ best items holder value u :=
  best_le_iff.mp le_rfl i hitem hholder

/-- Only the values of the holder's own items count. -/
theorem best_congr {holder' : ι → Option υ} {value' : ι → α}
    (hholder : ∀ i ∈ items, holder i = some u ↔ holder' i = some u)
    (hvalue : ∀ i ∈ items, holder i = some u → value i = value' i) :
    best items holder value u = best items holder' value' u := by
  rw [best, best, ← Finset.filter_congr hholder]
  exact Finset.sup_congr rfl fun i hi => hvalue i (Finset.mem_filter.mp hi).1 (Finset.mem_filter.mp hi).2

variable [DecidableEq ι]

/-- The best is the best of the others or the value of the item. -/
theorem best_eq_sup_erase (hitem : i ∈ items) (hholder : holder i = some u) :
    best items holder value u = best (items.erase i) holder value u ⊔ value i := by
  refine le_antisymm (best_le_iff.mpr fun j hj hjholder => ?_) (sup_le ?_ (le_best hitem hholder))
  · by_cases heq : j = i
    · exact heq ▸ le_sup_right
    · exact le_sup_of_le_left (le_best (Finset.mem_erase.mpr ⟨heq, hj⟩) hjholder)
  · exact best_le_iff.mpr fun j hj hjholder => le_best (Finset.mem_of_mem_erase hj) hjholder

theorem best_erase_of_ne (hholder : holder i ≠ some v) :
    best (items.erase i) holder value v = best items holder value v := by
  refine le_antisymm (best_le_iff.mpr fun j hj hjholder => ?_) (best_le_iff.mpr fun j hj hjholder => ?_)
  · exact le_best (Finset.mem_of_mem_erase hj) hjholder
  · refine le_best (Finset.mem_erase.mpr ⟨?_, hj⟩) hjholder
    rintro rfl
    exact hholder hjholder

/-! ## An item changes hands -/

theorem best_update_self (hitem : i ∈ items) :
    best items (Function.update holder i (some u)) value u = best items holder value u ⊔ value i := by
  refine le_antisymm (best_le_iff.mpr fun j hj hjholder => ?_) (sup_le (best_le_iff.mpr fun j hj hjholder => ?_) ?_)
  · by_cases heq : j = i
    · exact heq ▸ le_sup_right
    · rw [Function.update_of_ne heq] at hjholder
      exact le_sup_of_le_left (le_best hj hjholder)
  · refine le_best hj ?_
    by_cases heq : j = i
    · rw [heq, Function.update_self]
    · rw [Function.update_of_ne heq, hjholder]
  · exact le_best hitem (Function.update_self i (some u) holder)

theorem best_update_of_ne (hne : v ≠ u) :
    best items (Function.update holder i (some u)) value v = best (items.erase i) holder value v := by
  refine le_antisymm (best_le_iff.mpr fun j hj hjholder => ?_) (best_le_iff.mpr fun j hj hjholder => ?_)
  · have heq : j ≠ i := by
      rintro rfl
      rw [Function.update_self] at hjholder
      exact hne (Option.some.inj hjholder).symm
    rw [Function.update_of_ne heq] at hjholder
    exact le_best (Finset.mem_erase.mpr ⟨heq, hj⟩) hjholder
  · obtain ⟨heq, hitem⟩ := Finset.mem_erase.mp hj
    exact le_best hitem (by rw [Function.update_of_ne heq, hjholder])

theorem best_update_of_not_mem (hitem : i ∉ items) :
    best items (Function.update holder i (some u)) value v = best items holder value v := by
  refine best_congr (fun j hj => ?_) fun _ _ _ => rfl
  rw [Function.update_of_ne (ne_of_mem_of_not_mem hj hitem)]

/-- Nobody's best changes if the new holder has as good an item, and so has the old one. -/
theorem best_update_iff :
    (∀ v, best items (Function.update holder i (some u)) value v = best items holder value v) ↔
      (i ∈ items → value i ≤ best items holder value u ∧
        ∀ v, holder i = some v → v ≠ u → value i ≤ best (items.erase i) holder value v) := by
  by_cases hitem : i ∈ items
  · simp only [hitem, true_imp_iff]
    constructor
    · intro hsame
      refine ⟨?_, fun v hholder hne => ?_⟩
      · rw [← hsame u, best_update_self hitem]
        exact le_sup_right
      · rw [← best_update_of_ne hne, hsame v]
        exact le_best hitem hholder
    · rintro ⟨hnew, hold⟩ v
      by_cases hne : v = u
      · rw [hne, best_update_self hitem, sup_eq_left.mpr hnew]
      · rw [best_update_of_ne hne]
        by_cases hholder : holder i = some v
        · rw [best_eq_sup_erase hitem hholder, sup_eq_left.mpr (hold v hholder hne)]
        · exact best_erase_of_ne hholder
  · exact iff_of_true (fun v => best_update_of_not_mem hitem) fun h => absurd h hitem

end Mmog.Ruby
