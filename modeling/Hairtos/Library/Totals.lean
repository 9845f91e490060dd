import Mathlib.Algebra.Order.BigOperators.Group.Finset
import Mathlib.Data.Fintype.Basic

namespace Hairtos.Library

variable {ι X : Type} [Fintype ι] [DecidableEq ι]

def total (weight : X → Nat) (family : ι → X) : Nat := ∑ i, weight (family i)

theorem total_update (weight : X → Nat) (family : ι → X) (i : ι) (x : X) :
    total weight (Function.update family i x) + weight (family i) = total weight family + weight x := by
  have hrest : ∑ j ∈ Finset.univ.erase i, weight (Function.update family i x j) =
      ∑ j ∈ Finset.univ.erase i, weight (family j) := by
    refine Finset.sum_congr rfl (fun j hj => ?_)
    rw [Function.update_of_ne (Finset.ne_of_mem_erase hj)]
  simp only [total]
  rw [← Finset.add_sum_erase Finset.univ (fun j => weight (Function.update family i x j)) (Finset.mem_univ i),
    ← Finset.add_sum_erase Finset.univ (fun j => weight (family j)) (Finset.mem_univ i), hrest, Function.update_self]
  omega

omit [DecidableEq ι] in
theorem le_total (weight : X → Nat) (family : ι → X) (i : ι) : weight (family i) ≤ total weight family :=
  Finset.single_le_sum (f := fun j => weight (family j)) (fun _ _ => Nat.zero_le _) (Finset.mem_univ i)

omit [DecidableEq ι] in
theorem total_eq_zero (weight : X → Nat) {family : ι → X} (h : ∀ i, weight (family i) = 0) :
    total weight family = 0 :=
  Finset.sum_eq_zero (fun i _ => h i)

end Hairtos.Library
