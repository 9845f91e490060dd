import Mathlib.Algebra.Order.Group.Nat
import Mathlib.Data.Nat.ModEq
import Mathlib.Order.Nat

namespace Hairtos.Library

structure Alarm where
  period : Nat
  reload : Bool
  left : Option Nat
  pending : Nat
  deriving DecidableEq, Repr

inductive AlarmEvent
  | create (period : Nat) (reload : Bool)
  | arm (period : Nat)
  | stop
  | tick
  | serve
  deriving DecidableEq, Repr

namespace Alarm

def due (a : Alarm) : Bool := a.left = some 1

def expire (limit : Nat) (a : Alarm) : Alarm :=
  { a with
    left := if a.reload then some a.period else none
    pending := if a.pending < limit then a.pending + 1 else a.pending }

def step (limit : Nat) (a : Alarm) : AlarmEvent → Alarm
  | .create period reload => ⟨period, reload, none, 0⟩
  | .arm period => { a with period := period, left := some period, pending := 0 }
  | .stop => { a with left := none, pending := 0 }
  | .tick => if a.due then a.expire limit else { a with left := a.left.map (· - 1) }
  | .serve => { a with pending := a.pending - 1 }

structure Since (p n : Nat) (a : Alarm) : Prop where
  period : a.period = p
  left : a.left = if a.reload then some (p - n % p) else if n < p then some (p - n) else none

variable {a : Alarm} {p n limit : Nat}

theorem due_eq_true : a.due = true ↔ a.left = some 1 := decide_eq_true_iff

theorem since_arm (a : Alarm) (hp : 0 < p) : (a.step limit (.arm p)).Since p 0 := by
  refine ⟨rfl, ?_⟩
  simp [step, hp]

theorem Since.serve (h : a.Since p n) : (a.step limit .serve).Since p n := ⟨h.period, h.left⟩

theorem Since.due_iff (h : a.Since p n) (hp : 0 < p) :
    a.due = true ↔ if a.reload then p ∣ n + 1 else n + 1 = p := by
  have hmod := Nat.mod_lt n hp
  rw [due_eq_true, h.left]
  cases a.reload with
  | true =>
    simp only [↓reduceIte, Option.some.injEq, Nat.dvd_iff_mod_eq_zero, Nat.add_mod n 1 p]
    by_cases h1 : p = 1
    · simp [h1, Nat.mod_one]
    · rw [Nat.mod_eq_of_lt (show 1 < p by omega)]
      constructor
      · intro hone
        rw [show n % p + 1 = p by omega, Nat.mod_self]
      · intro hzero
        have := Nat.le_of_dvd (Nat.succ_pos _) (Nat.dvd_of_mod_eq_zero hzero)
        omega
  | false =>
    simp only [Bool.false_eq_true, ↓reduceIte]
    split
    · simp only [Option.some.injEq]
      omega
    · simp only [reduceCtorEq, false_iff]
      omega

theorem Since.tick (h : a.Since p n) (hp : 0 < p) : (a.step limit .tick).Since p (n + 1) := by
  have hdue := h.due_iff hp
  have hmod := Nat.mod_lt n hp
  simp only [step]
  cases hr : a.reload with
  | true =>
    simp only [hr, ↓reduceIte] at hdue
    split
    · next hd =>
      refine ⟨h.period, ?_⟩
      have hzero := Nat.mod_eq_zero_of_dvd (hdue.mp hd)
      simp [expire, hr, h.period, hzero]
    · next hd =>
      refine ⟨h.period, ?_⟩
      have hne : (n + 1) % p ≠ 0 := fun hz => hd (hdue.mpr (Nat.dvd_of_mod_eq_zero hz))
      have hsucc : (n + 1) % p = n % p + 1 := by
        rw [Nat.add_mod] at hne ⊢
        by_cases h1 : p = 1
        · simp [h1, Nat.mod_one] at hne
        · rw [Nat.mod_eq_of_lt (show 1 < p by omega)] at hne ⊢
          apply Nat.mod_eq_of_lt
          by_contra hge
          exact hne (by rw [show n % p + 1 = p by omega, Nat.mod_self])
      simp only [h.left, hr, ↓reduceIte, Option.map_some, hsucc, Nat.sub_sub]
  | false =>
    simp only [hr, Bool.false_eq_true, ↓reduceIte] at hdue
    split
    · next hd =>
      refine ⟨h.period, ?_⟩
      have := hdue.mp hd
      simp [expire, hr, show ¬ n + 1 < p by omega]
    · next hd =>
      refine ⟨h.period, ?_⟩
      have hne : n + 1 ≠ p := fun he => hd (hdue.mpr he)
      simp only [h.left, hr, Bool.false_eq_true, ↓reduceIte]
      by_cases hlt : n + 1 < p
      · simp only [show n < p by omega, hlt, ↓reduceIte, Option.map_some, Nat.sub_sub]
      · simp only [show ¬ n < p by omega, hlt, ↓reduceIte, Option.map_none]

def expiries (p : Nat) (reload : Bool) (n : Nat) : Nat := if reload then n / p else if n < p then 0 else 1

theorem Since.expiries_succ (h : a.Since p n) (hp : 0 < p) :
    expiries p a.reload (n + 1) = expiries p a.reload n + if a.due then 1 else 0 := by
  have hdue := h.due_iff hp
  unfold expiries
  cases hr : a.reload with
  | true =>
    simp only [hr, ↓reduceIte] at hdue
    simp only [↓reduceIte, Nat.succ_div, hdue]
  | false =>
    simp only [hr, Bool.false_eq_true, ↓reduceIte] at hdue
    simp only [Bool.false_eq_true, ↓reduceIte, hdue]
    split_ifs <;> omega

end Alarm

end Hairtos.Library
