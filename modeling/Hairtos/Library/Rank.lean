import Mathlib.Data.List.Sort
import Mathlib.Order.Bounds.Basic

namespace Hairtos.Library

instance bitVecLinearOrder (w : Nat) : LinearOrder (BitVec w) where
  le_refl := BitVec.le_refl
  le_trans := fun _ _ _ => BitVec.le_trans
  le_antisymm := fun _ _ => BitVec.le_antisymm
  le_total := BitVec.le_total
  lt_iff_le_not_ge := by
    intro a b
    rw [BitVec.lt_def, BitVec.le_def, BitVec.le_def]
    omega
  toDecidableLE := inferInstance
  toDecidableLT := inferInstance

section

variable {α : Type} [LinearOrder α] {xs ys : List α} {i : Nat}

theorem eq_of_perm_of_sorted (h : xs.Perm ys) (hx : xs.Pairwise (· ≤ ·)) (hy : ys.Pairwise (· ≤ ·)) : xs = ys :=
  h.eq_of_pairwise (fun _ _ _ _ => le_antisymm) hx hy

theorem rank_lt_countP_le (h : xs.Pairwise (· ≤ ·)) (hi : i < xs.length) :
    i + 1 ≤ xs.countP (fun x => decide (x ≤ xs[i])) := by
  have htake : (xs.take (i + 1)).countP (fun x => decide (x ≤ xs[i])) = i + 1 := by
    rw [List.countP_eq_length.mpr, List.length_take, min_eq_left hi]
    intro x hx
    obtain ⟨j, hj, rfl⟩ := List.mem_take_iff_getElem.mp hx
    rw [decide_eq_true_eq]
    rcases (show j < i ∨ j = i by omega) with hlt | rfl
    · exact List.pairwise_iff_getElem.mp h j i _ hi hlt
    · exact le_rfl
  rw [← htake]
  exact (List.take_sublist _ _).countP_le

theorem countP_lt_le_rank (h : xs.Pairwise (· ≤ ·)) (hi : i < xs.length) :
    xs.countP (fun x => decide (x < xs[i])) ≤ i := by
  have hdrop : (xs.drop i).countP (fun x => decide (x < xs[i])) = 0 := by
    rw [List.countP_eq_zero]
    intro x hx
    obtain ⟨j, hj, rfl⟩ := List.mem_drop_iff_getElem.mp hx
    rw [decide_eq_true_eq, not_lt]
    rcases Nat.eq_zero_or_pos j with rfl | hpos
    · exact le_rfl
    · exact List.pairwise_iff_getElem.mp h i (i + j) hi (by omega) (by omega)
  calc xs.countP (fun x => decide (x < xs[i]))
      = (xs.take i).countP (fun x => decide (x < xs[i])) + (xs.drop i).countP (fun x => decide (x < xs[i])) := by
        rw [← List.countP_append, List.take_append_drop]
    _ ≤ (xs.take i).length := by
        rw [hdrop, Nat.add_zero]
        exact List.countP_le_length
    _ ≤ i := List.length_take_le i xs

theorem sorted_getElem_mono (h : xs.Pairwise (· ≤ ·)) {j : Nat} (hij : i ≤ j) (hj : j < xs.length) :
    xs[i] ≤ xs[j] := by
  rcases hij.eq_or_lt with rfl | hlt
  · exact le_rfl
  · exact List.pairwise_iff_getElem.mp h i j _ hj hlt

theorem isLeast_getElem_zero (h : xs.Pairwise (· ≤ ·)) (hpos : 0 < xs.length) : IsLeast { x | x ∈ xs } xs[0] := by
  refine ⟨List.getElem_mem hpos, ?_⟩
  intro x hx
  obtain ⟨j, hj, rfl⟩ := List.getElem_of_mem hx
  exact sorted_getElem_mono h (Nat.zero_le j) hj

theorem isGreatest_getElem_last (h : xs.Pairwise (· ≤ ·)) (hpos : 0 < xs.length) :
    IsGreatest { x | x ∈ xs } xs[xs.length - 1] := by
  refine ⟨List.getElem_mem _, ?_⟩
  intro x hx
  obtain ⟨j, hj, rfl⟩ := List.getElem_of_mem hx
  exact sorted_getElem_mono h (by omega) (by omega)

end

end Hairtos.Library
