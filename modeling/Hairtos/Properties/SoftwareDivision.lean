import Hairtos.Benchmark
import Mathlib.Algebra.Order.Ring.Nat
import Mathlib.Tactic.Ring

namespace Hairtos

structure Division.After (n d i : Nat) (v : Division) : Prop where
  numerator : v.numerator.toNat = n * 2 ^ i % 2 ^ 64
  quotient : v.quotient.toNat = n / 2 ^ (64 - i) / d
  remainder : v.remainder.toNat = n / 2 ^ (64 - i) % d

section

variable {n d i : Nat} {v : Division}

theorem shiftLeft_top (n : Nat) (hi : i < 64) : n * 2 ^ i % 2 ^ 64 / 2 ^ 63 = n / 2 ^ (63 - i) % 2 := by
  have hsplit : (2 : Nat) ^ 63 = 2 ^ (63 - i) * 2 ^ i := by rw [← pow_add, Nat.sub_add_cancel (by omega)]
  rw [show (2 : Nat) ^ 64 = 2 ^ 63 * 2 from rfl, Nat.mod_mul_right_div_self, hsplit,
    Nat.mul_div_mul_right _ _ (Nat.two_pow_pos i)]

theorem div_two_pow_succ (n : Nat) (hi : i < 64) :
    n / 2 ^ (63 - i) = 2 * (n / 2 ^ (64 - i)) + n / 2 ^ (63 - i) % 2 := by
  rw [show 64 - i = 63 - i + 1 by omega, pow_succ, ← Nat.div_div_eq_div_mul]
  exact (Nat.div_add_mod _ 2).symm

theorem or_toNat {a b : BitVec 64} (ha : a.toNat < 2 ^ 63) (hb : b.toNat < 2) :
    ((a <<< 1) ||| b).toNat = 2 * a.toNat + b.toNat := by
  rw [BitVec.toNat_or, BitVec.toNat_shiftLeft, Nat.shiftLeft_eq, pow_one, Nat.mod_eq_of_lt (by omega), Nat.mul_comm]
  exact (Nat.two_pow_add_eq_or_of_lt (i := 1) hb a.toNat).symm

theorem Division.After.shifted (h : v.After n d i) (hi : i < 64) (hd : 0 < d) (hlt : d < 2 ^ 32) :
    v.shifted.toNat = 2 * v.remainder.toNat + n / 2 ^ (63 - i) % 2 := by
  have hrem : v.remainder.toNat < 2 ^ 63 := by
    rw [h.remainder]
    exact (Nat.mod_lt _ hd).trans (by omega)
  have htop : (v.numerator >>> 63).toNat = n / 2 ^ (63 - i) % 2 := by
    rw [BitVec.toNat_ushiftRight, Nat.shiftRight_eq_div_pow, h.numerator, shiftLeft_top n hi]
  rw [Division.shifted, or_toNat hrem (by omega), htop]

theorem double_divMod (a b : Nat) (hd : 0 < d) (hb : b < 2) :
    (2 * a + b) / d = 2 * (a / d) + (if d ≤ 2 * (a % d) + b then 1 else 0) ∧
      (2 * a + b) % d = if d ≤ 2 * (a % d) + b then 2 * (a % d) + b - d else 2 * (a % d) + b := by
  have hmod := Nat.mod_lt a hd
  have hsplit : 2 * a + b = 2 * (a % d) + b + d * (2 * (a / d)) := by
    calc 2 * a + b = 2 * (d * (a / d) + a % d) + b := by rw [Nat.div_add_mod]
      _ = _ := by ring
  rw [hsplit, Nat.add_mul_div_left _ _ hd, Nat.add_mul_mod_self_left]
  split_ifs with hle
  · have hlt : 2 * (a % d) + b - d < d := by omega
    rw [Nat.div_eq_sub_div hd hle, Nat.div_eq_of_lt hlt, Nat.mod_eq_sub_mod hle, Nat.mod_eq_of_lt hlt]
    omega
  · have hlt : 2 * (a % d) + b < d := not_le.mp hle
    rw [Nat.div_eq_of_lt hlt, Nat.mod_eq_of_lt hlt]
    omega

theorem Division.After.quotient_lt (h : v.After n d i) (hi : i < 64) (hn : n < 2 ^ 64) : v.quotient.toNat < 2 ^ 63 := by
  rw [h.quotient]
  calc n / 2 ^ (64 - i) / d ≤ n / 2 ^ (64 - i) := Nat.div_le_self _ _
    _ ≤ n / 2 ^ 1 := Nat.div_le_div_left (Nat.pow_le_pow_right (by decide) (by omega)) (by decide)
    _ < 2 ^ 63 := by omega

theorem Division.After.step {denominator : BitVec 32} (h : v.After n denominator.toNat i) (hi : i < 64)
    (hn : n < 2 ^ 64) (hd : 0 < denominator.toNat) : (v.step denominator).After n denominator.toNat (i + 1) := by
  have hlt := denominator.isLt
  have hshift := h.shifted hi hd hlt
  have hquotient := h.quotient_lt hi hn
  have hwide : (denominator.setWidth 64).toNat = denominator.toNat := by
    rw [BitVec.toNat_setWidth, Nat.mod_eq_of_lt (by omega)]
  have hnumerator : (v.numerator <<< 1).toNat = n * 2 ^ (i + 1) % 2 ^ 64 := by
    rw [BitVec.toNat_shiftLeft, Nat.shiftLeft_eq, h.numerator, Nat.mod_mul_mod, pow_one, mul_assoc, ← pow_succ]
  have hnext : n / 2 ^ (64 - (i + 1)) = 2 * (n / 2 ^ (64 - i)) + n / 2 ^ (63 - i) % 2 := by
    rw [← div_two_pow_succ n hi, show 64 - (i + 1) = 63 - i by omega]
  obtain ⟨hdiv, hmod⟩ := double_divMod (n / 2 ^ (64 - i)) (n / 2 ^ (63 - i) % 2) hd (Nat.mod_lt _ (by decide))
  rw [← hnext, ← h.quotient, ← h.remainder, ← hshift] at hdiv
  rw [← hnext, ← h.remainder, ← hshift] at hmod
  have hle : denominator.setWidth 64 ≤ v.shifted ↔ denominator.toNat ≤ v.shifted.toNat := by
    rw [BitVec.le_def, hwide]
  unfold Division.step
  by_cases hc : denominator.toNat ≤ v.shifted.toNat
  · rw [if_pos hc] at hdiv hmod
    rw [if_pos (hle.mpr hc)]
    refine ⟨hnumerator, ?_, ?_⟩
    · rw [hdiv, or_toNat hquotient (by decide)]
      rfl
    · rw [hmod, BitVec.toNat_sub_of_le (hle.mpr hc), hwide]
  · rw [if_neg hc] at hdiv hmod
    rw [if_neg (mt hle.mp hc)]
    refine ⟨hnumerator, ?_, hmod.symm⟩
    rw [hdiv, BitVec.toNat_shiftLeft, Nat.shiftLeft_eq, pow_one, Nat.mod_eq_of_lt (by omega), mul_comm, add_zero]

theorem Division.after_iterate (numerator : BitVec 64) {denominator : BitVec 32} (hd : denominator ≠ 0#32)
    (hi : i ≤ 64) : ((Division.step denominator)^[i] { numerator := numerator }).After numerator.toNat
      denominator.toNat i := by
  have hpos : 0 < denominator.toNat := Nat.pos_of_ne_zero (fun h => hd (BitVec.eq_of_toNat_eq h))
  induction i with
  | zero =>
    have hlow : numerator.toNat / 2 ^ 64 = 0 := Nat.div_eq_of_lt numerator.isLt
    refine ⟨?_, ?_, ?_⟩
    · rw [pow_zero, mul_one, Nat.mod_eq_of_lt numerator.isLt]
      rfl
    · rw [Nat.sub_zero, hlow, Nat.zero_div]
      rfl
    · rw [Nat.sub_zero, hlow, Nat.zero_mod]
      rfl
  | succ i ih =>
    rw [Function.iterate_succ_apply']
    exact (ih (by omega)).step (by omega) numerator.isLt hpos

theorem benchmarkDivideU64ByU32_toNat (numerator : BitVec 64) {denominator : BitVec 32} (hd : denominator ≠ 0#32) :
    (benchmarkDivideU64ByU32 numerator denominator).toNat = numerator.toNat / denominator.toNat := by
  rw [benchmarkDivideU64ByU32, if_neg hd, (Division.after_iterate numerator hd le_rfl).quotient]
  simp

theorem nanoseconds_product (cycles : BitVec 32) :
    (cycles.setWidth 64 * 1000000000#64).toNat = cycles.toNat * 10 ^ 9 := by
  have hlt := cycles.isLt
  rw [BitVec.toNat_mul, BitVec.toNat_setWidth, BitVec.toNat_ofNat, Nat.mod_eq_of_lt (a := cycles.toNat) (by omega)]
  exact Nat.mod_eq_of_lt (by omega)

theorem benchmarkCyclesToNanoseconds_toNat (cycles : BitVec 32) {coreClockHz : BitVec 32} (hd : coreClockHz ≠ 0#32) :
    (benchmarkCyclesToNanoseconds cycles coreClockHz).toNat =
      min (cycles.toNat * 10 ^ 9 / coreClockHz.toNat) (2 ^ 32 - 1) := by
  have hquotient := benchmarkDivideU64ByU32_toNat (cycles.setWidth 64 * 1000000000#64) hd
  rw [nanoseconds_product] at hquotient
  rw [← hquotient, benchmarkCyclesToNanoseconds, if_neg hd]
  generalize benchmarkDivideU64ByU32 (cycles.setWidth 64 * 1000000000#64) coreClockHz = nanoseconds
  dsimp only
  have hlt : 0xFFFFFFFF#64 < nanoseconds ↔ 2 ^ 32 - 1 < nanoseconds.toNat := by
    rw [BitVec.lt_def, show (0xFFFFFFFF#64).toNat = 2 ^ 32 - 1 by decide]
  split_ifs with hc
  · rw [min_eq_right (hlt.mp hc).le]
    decide
  · have hle : nanoseconds.toNat ≤ 2 ^ 32 - 1 := not_lt.mp (mt hlt.mpr hc)
    rw [min_eq_left hle, BitVec.toNat_setWidth, Nat.mod_eq_of_lt (by omega)]

end

/-- The loop divides exactly. No round overflows: the remainder is below the denominator, so that there is room for
the next bit. -/
theorem division_exact (numerator : BitVec 64) (denominator : BitVec 32) (hd : denominator ≠ 0#32) :
    (benchmarkDivideU64ByU32 numerator denominator).toNat = numerator.toNat / denominator.toNat ∧
    (∀ i < 64, let v := (Division.step denominator)^[i] { numerator := numerator }
      v.remainder.toNat < denominator.toNat ∧
        v.shifted.toNat = 2 * v.remainder.toNat + (v.numerator >>> 63).toNat) ∧
    ∀ cycles : BitVec 32,
      (cycles.setWidth 64 * 1000000000#64).toNat = cycles.toNat * 10 ^ 9 ∧
        (benchmarkCyclesToNanoseconds cycles denominator).toNat =
          min (cycles.toNat * 10 ^ 9 / denominator.toNat) (2 ^ 32 - 1) := by
  have hpos : 0 < denominator.toNat := Nat.pos_of_ne_zero (fun h => hd (BitVec.eq_of_toNat_eq h))
  refine ⟨benchmarkDivideU64ByU32_toNat numerator hd, ?_,
    fun cycles => ⟨nanoseconds_product cycles, benchmarkCyclesToNanoseconds_toNat cycles hd⟩⟩
  intro i hi v
  have hafter := Division.after_iterate numerator hd hi.le
  refine ⟨hafter.remainder ▸ Nat.mod_lt _ hpos, ?_⟩
  rw [hafter.shifted hi hpos denominator.isLt, BitVec.toNat_ushiftRight, Nat.shiftRight_eq_div_pow, hafter.numerator,
    shiftLeft_top _ hi]

theorem division_exact_three : 7 / 3 = (benchmarkDivideU64ByU32 7#64 3#32).toNat :=
  (division_exact 7#64 3#32 (by decide)).1.symm

end Hairtos
