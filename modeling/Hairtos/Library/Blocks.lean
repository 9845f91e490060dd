import Mathlib.Algebra.Order.Group.Nat
import Mathlib.Data.List.Nodup

namespace Hairtos.Library

variable {begin stride count x : Nat}

def blockStarts (begin stride count : Nat) : List Nat := (List.range count).map fun i => begin + i * stride

theorem mem_blockStarts :
    x ∈ blockStarts begin stride count ↔ ∃ i < count, begin + i * stride = x := by
  simp [blockStarts]

theorem blockStarts_nodup (h : 0 < stride) (count : Nat) :
    (blockStarts begin stride count).Nodup := by
  refine List.Nodup.map (fun i j hij => ?_) List.nodup_range
  exact Nat.eq_of_mul_eq_mul_right h (by omega)

theorem blockStarts_apart {y : Nat} (hx : x ∈ blockStarts begin stride count)
    (hy : y ∈ blockStarts begin stride count) (hne : x ≠ y) : x + stride ≤ y ∨ y + stride ≤ x := by
  obtain ⟨i, -, rfl⟩ := mem_blockStarts.mp hx
  obtain ⟨j, -, rfl⟩ := mem_blockStarts.mp hy
  rcases Nat.lt_trichotomy i j with h | rfl | h
  · have := Nat.mul_le_mul_right stride (Nat.succ_le_of_lt h)
    rw [Nat.succ_mul] at this
    omega
  · exact absurd rfl hne
  · have := Nat.mul_le_mul_right stride (Nat.succ_le_of_lt h)
    rw [Nat.succ_mul] at this
    omega

theorem blockStarts_bounds (hx : x ∈ blockStarts begin stride count) :
    begin ≤ x ∧ x + stride ≤ begin + count * stride := by
  obtain ⟨i, hi, rfl⟩ := mem_blockStarts.mp hx
  have := Nat.mul_le_mul_right stride (Nat.succ_le_of_lt hi)
  rw [Nat.succ_mul] at this
  omega

end Hairtos.Library
