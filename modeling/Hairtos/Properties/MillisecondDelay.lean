import Hairtos.HwTimer
import Mathlib.Algebra.Order.Ring.Nat
import Mathlib.Tactic.Ring

namespace Hairtos

def MillisAdvance (tickRateHz n : BitVec 32) : Prop :=
  1000 * n.toNat % 2 ^ 32 + 1000 < 2 ^ 32 ∨ 1000 * n.toNat % 2 ^ 32 < tickRateHz.toNat

instance decidableMillisAdvance (tickRateHz n : BitVec 32) : Decidable (MillisAdvance tickRateHz n) :=
  inferInstanceAs (Decidable (_ ∨ _))

section

variable {timer : HwTimer}

theorem hwTimerInit_rate {systemCoreClock tickRateHz : BitVec 32}
    (h : (hwTimerInit systemCoreClock timer tickRateHz).2 = true) :
    0 < tickRateHz.toNat ∧ hwTimerInit systemCoreClock timer tickRateHz = ({ tickRateHz := tickRateHz }, true) := by
  unfold hwTimerInit at h ⊢
  dsimp only at h ⊢
  split_ifs at h ⊢ with hrate
  · refine ⟨Nat.pos_of_ne_zero ?_, rfl⟩
    intro hz
    simp [BitVec.eq_of_toNat_eq (y := 0#32) hz] at hrate

def HwTimer.product (timer : HwTimer) : Nat := 1000 * timer.millisecondTick.toNat % 2 ^ 32

theorem hwTimerMillis_toNat (hr : 0 < timer.tickRateHz.toNat) :
    (hwTimerMillis timer).toNat = timer.product / timer.tickRateHz.toNat := by
  have hne : timer.tickRateHz ≠ 0#32 := by
    intro hz
    simp [hz] at hr
  rw [hwTimerMillis, if_neg hne, BitVec.toNat_udiv, BitVec.toNat_mul, HwTimer.product, Nat.mul_comm]
  rfl

theorem product_lt (timer : HwTimer) : timer.product < 2 ^ 32 := Nat.mod_lt _ (by decide)

theorem product_tick (timer : HwTimer) : (hwTimerTickIsr timer).product = (timer.product + 1000) % 2 ^ 32 := by
  simp only [HwTimer.product, hwTimerTickIsr, BitVec.toNat_add, BitVec.toNat_ofNat]
  omega

theorem iterate_tick (n : Nat) (timer : HwTimer) :
    hwTimerTickIsr^[n] timer = { timer with millisecondTick := timer.millisecondTick + BitVec.ofNat 32 n } := by
  induction n with
  | zero => simp
  | succ n ih =>
    rw [Function.iterate_succ_apply', ih, hwTimerTickIsr, BitVec.ofNat_add, BitVec.add_assoc]

theorem millisAdvance_iff (timer : HwTimer) : MillisAdvance timer.tickRateHz timer.millisecondTick ↔
    timer.product + 1000 < 2 ^ 32 ∨ timer.product < timer.tickRateHz.toNat := Iff.rfl

theorem millis_le_tick_iff (hr : 1000 ≤ timer.tickRateHz.toNat) :
    hwTimerMillis timer ≤ hwTimerMillis (hwTimerTickIsr timer) ↔
      MillisAdvance timer.tickRateHz timer.millisecondTick := by
  have hpos : 0 < timer.tickRateHz.toNat := by omega
  have hlt := product_lt timer
  have hnext : (hwTimerMillis (hwTimerTickIsr timer)).toNat =
      (hwTimerTickIsr timer).product / timer.tickRateHz.toNat := hwTimerMillis_toNat hpos
  rw [BitVec.le_def, hwTimerMillis_toNat hpos, hnext, product_tick, millisAdvance_iff]
  by_cases hwrap : timer.product + 1000 < 2 ^ 32
  · rw [Nat.mod_eq_of_lt hwrap]
    exact iff_of_true (Nat.div_le_div_right (by omega)) (Or.inl hwrap)
  · have hzero : (timer.product + 1000) % 2 ^ 32 / timer.tickRateHz.toNat = 0 := Nat.div_eq_of_lt (by omega)
    rw [hzero, Nat.le_zero, Nat.div_eq_zero_iff_lt hpos]
    exact ⟨Or.inr, fun h => h.resolve_left hwrap⟩

structure DelayWaits (start product counted : Nat) (timer : HwTimer) : Prop where
  rate : 0 < timer.tickRateHz.toNat
  later : start ≤ timer.product / timer.tickRateHz.toNat
  bound : timer.product ≤ product + 1000 * counted

theorem DelayWaits.tick {start product counted : Nat} (h : DelayWaits start product counted timer)
    (hadvance : MillisAdvance timer.tickRateHz timer.millisecondTick) :
    DelayWaits start product (counted + 1) (hwTimerTickIsr timer) := by
  have hlt := product_lt timer
  have hbound := h.bound
  have hrate := h.rate
  refine ⟨hrate, ?_, ?_⟩
  · rw [product_tick, show (hwTimerTickIsr timer).tickRateHz = timer.tickRateHz from rfl]
    rcases (millisAdvance_iff timer).mp hadvance with hroom | hbelow
    · rw [Nat.mod_eq_of_lt hroom]
      exact h.later.trans (Nat.div_le_div_right (by omega))
    · have hzero : timer.product / timer.tickRateHz.toNat = 0 := Nat.div_eq_of_lt hbelow
      have hlater := h.later
      rw [hzero, Nat.le_zero] at hlater
      rw [hlater]
      exact Nat.zero_le _
  · rw [product_tick]
    exact (Nat.mod_le _ _).trans (by omega)

theorem DelayWaits.ticks {start product counted : Nat} (h : DelayWaits start product counted timer) (n : Nat)
    (hadvance : ∀ i < n, MillisAdvance timer.tickRateHz (timer.millisecondTick + BitVec.ofNat 32 i)) :
    DelayWaits start product (counted + n) (hwTimerTickIsr^[n] timer) := by
  induction n with
  | zero => exact h
  | succ n ih =>
    rw [Function.iterate_succ_apply']
    refine (ih (fun i hi => hadvance i (by omega))).tick ?_
    rw [iterate_tick]
    exact hadvance n (by omega)

theorem DelayWaits.ends {start milliseconds : BitVec 32} {product counted : Nat}
    (h : DelayWaits start.toNat product counted timer) (hpos : 0 < milliseconds.toNat)
    (hproduct : product < timer.tickRateHz.toNat * (start.toNat + 1))
    (hends : ¬ hwTimerMillis timer - start < milliseconds) :
    (milliseconds.toNat - 1) * timer.tickRateHz.toNat < 1000 * counted := by
  have hmillis := hwTimerMillis_toNat h.rate
  have hlater := h.later
  rw [← hmillis] at hlater
  rw [BitVec.lt_def, not_lt, BitVec.toNat_sub_of_le (BitVec.le_def.mpr hlater)] at hends
  obtain ⟨m, hm⟩ : ∃ m, milliseconds.toNat = m + 1 := ⟨milliseconds.toNat - 1, by omega⟩
  have hscaled : timer.tickRateHz.toNat * (start.toNat + (m + 1)) ≤ timer.product := by
    calc timer.tickRateHz.toNat * (start.toNat + (m + 1))
        ≤ timer.tickRateHz.toNat * (hwTimerMillis timer).toNat := Nat.mul_le_mul_left _ (by omega)
      _ ≤ timer.product := by
        rw [hmillis]
        exact Nat.mul_div_le _ _
  have hbound := h.bound
  rw [hm, Nat.add_sub_cancel, Nat.mul_comm]
  rw [Nat.mul_add] at hproduct hscaled
  rw [Nat.mul_add] at hscaled
  omega

theorem le_of_hwTimerDelayLoop {start milliseconds : BitVec 32} {counted total : Nat} {ticks : List Nat}
    (h : hwTimerDelayLoop timer start milliseconds counted ticks = some total) : counted ≤ total := by
  induction ticks generalizing timer counted with
  | nil => simp [hwTimerDelayLoop] at h
  | cons n rest ih =>
    rw [hwTimerDelayLoop] at h
    split_ifs at h
    · exact (Nat.le_add_right _ _).trans (ih h)
    · exact (Nat.le_add_right _ _).trans (Option.some.inj h).le

theorem hwTimerDelayLoop_counted {start milliseconds : BitVec 32} {product counted total : Nat}
    (h : DelayWaits start.toNat product counted timer) (hpos : 0 < milliseconds.toNat)
    (hproduct : product < timer.tickRateHz.toNat * (start.toNat + 1)) {ticks : List Nat}
    (hreturns : hwTimerDelayLoop timer start milliseconds counted ticks = some total)
    (hadvance : ∀ i < total - counted, MillisAdvance timer.tickRateHz (timer.millisecondTick + BitVec.ofNat 32 i)) :
    (milliseconds.toNat - 1) * timer.tickRateHz.toNat < 1000 * total := by
  induction ticks generalizing timer counted with
  | nil => simp [hwTimerDelayLoop] at hreturns
  | cons n rest ih =>
    rw [hwTimerDelayLoop] at hreturns
    have hrate : (hwTimerTickIsr^[n] timer).tickRateHz = timer.tickRateHz := by rw [iterate_tick]
    split_ifs at hreturns with hloop
    · have hle := le_of_hwTimerDelayLoop hreturns
      have hwaits := h.ticks n (fun i hi => hadvance i (by omega))
      rw [← hrate]
      refine ih hwaits (by rwa [hrate]) hreturns ?_
      intro i hi
      rw [iterate_tick, BitVec.add_assoc, ← BitVec.ofNat_add]
      exact hadvance (n + i) (by omega)
    · obtain rfl := Option.some.inj hreturns
      have hwaits := h.ticks n (fun i hi => hadvance i (by omega))
      have hends := hwaits.ends hpos (by rwa [hrate]) hloop
      rwa [hrate] at hends

end

/-- A delay is not cut short if the milliseconds do not fall at any of its ticks. For tick rates of at least one tick
per millisecond they fall exactly at the ticks that do not meet the condition. -/
theorem delay_not_cut_short (systemCoreClock tickRateHz : BitVec 32) (timer : HwTimer)
    (hinit : (hwTimerInit systemCoreClock timer tickRateHz).2 = true) :
    (∀ (n milliseconds : BitVec 32) (ticks : List Nat) (counted : Nat), 0 < milliseconds.toNat →
      hwTimerDelayMs { millisecondTick := n, tickRateHz := tickRateHz } milliseconds ticks = some counted →
      (∀ i < counted, MillisAdvance tickRateHz (n + BitVec.ofNat 32 i)) →
      (milliseconds.toNat - 1) * tickRateHz.toNat < 1000 * counted) ∧
    (1000 ≤ tickRateHz.toNat → ∀ n : BitVec 32,
      hwTimerMillis { millisecondTick := n, tickRateHz := tickRateHz } ≤
          hwTimerMillis { millisecondTick := n + 1#32, tickRateHz := tickRateHz } ↔
        MillisAdvance tickRateHz n) := by
  obtain ⟨hrate, -⟩ := hwTimerInit_rate hinit
  refine ⟨?_, fun hr n => @millis_le_tick_iff { millisecondTick := n, tickRateHz := tickRateHz } hr⟩
  intro n milliseconds ticks counted hpos hreturns hadvance
  have hmillis := @hwTimerMillis_toNat { millisecondTick := n, tickRateHz := tickRateHz } hrate
  have hbegin : DelayWaits (hwTimerMillis { millisecondTick := n, tickRateHz := tickRateHz }).toNat
      (HwTimer.product { millisecondTick := n, tickRateHz := tickRateHz }) 0
      { millisecondTick := n, tickRateHz := tickRateHz } :=
    ⟨hrate, hmillis.le, le_rfl⟩
  refine hwTimerDelayLoop_counted hbegin hpos ?_ hreturns hadvance
  rw [hmillis]
  exact Nat.lt_mul_div_succ _ hrate

theorem delay_not_cut_short_two :
    (2 - 1) * 1000 < 1000 * 2 ∧
      hwTimerDelayMs { millisecondTick := 5#32, tickRateHz := 1000#32 } 2#32 [1, 1] = some 2 :=
  ⟨(delay_not_cut_short 72000000#32 1000#32 {} (by decide)).1 5#32 2#32 [1, 1] 2 (by decide) (by decide) (by decide),
    by decide⟩

/-- After 4294967 ticks of one millisecond a delay of ten milliseconds returns at the next tick, and the time jumps
back to zero. -/
theorem delay_cut_short :
    (hwTimerInit 72000000#32 {} 1000#32).2 = true ∧ 4294967 + 10 * 1000 / 1000 + 1 < 2 ^ 32 ∧
      hwTimerDelayMs { millisecondTick := 4294967#32, tickRateHz := 1000#32 } 10#32 [1] = some 1 ∧
      1 ≤ (10 - 1) * 1000 / 1000 ∧
      hwTimerMillis { millisecondTick := 4294968#32, tickRateHz := 1000#32 } <
        hwTimerMillis { millisecondTick := 4294967#32, tickRateHz := 1000#32 } := by
  decide

end Hairtos
