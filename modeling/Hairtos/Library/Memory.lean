import Mathlib.Algebra.Order.Group.Nat
import Mathlib.Tactic.Ring

namespace Hairtos.Library

variable {m : Memory} {a n v x : Nat}

abbrev Memory := Nat → UInt8

namespace Memory

def load (m : Memory) : Nat → Nat → Nat
  | _, 0 => 0
  | a, n + 1 => (m a).toNat + 256 * m.load (a + 1) n

def store (m : Memory) (a n v : Nat) : Memory := fun x =>
  if a ≤ x ∧ x < a + n then UInt8.ofNat (v / 256 ^ (x - a)) else m x

def fill (m : Memory) (a n : Nat) (b : UInt8) : Memory := fun x => if a ≤ x ∧ x < a + n then b else m x

theorem load_congr {m' : Memory} (h : ∀ x, a ≤ x → x < a + n → m' x = m x) :
    m'.load a n = m.load a n := by
  induction n generalizing a with
  | zero => rfl
  | succ n ih =>
    have hhead := h a (le_refl a) (by omega)
    have htail : m'.load (a + 1) n = m.load (a + 1) n := ih (fun x hx hlt => h x (by omega) (by omega))
    simp only [load, hhead, htail]

theorem load_lt (m : Memory) (a n : Nat) : m.load a n < 256 ^ n := by
  induction n generalizing a with
  | zero => simp [load]
  | succ n ih =>
    have hb : (m a).toNat < 256 := (m a).toNat_lt
    have ht := ih (a + 1)
    simp only [load, pow_succ]
    omega

theorem store_apply_of_not_mem (h : x < a ∨ a + n ≤ x) : m.store a n v x = m x := by
  simp only [store]
  rw [if_neg (by omega)]

theorem store_apply (h : a ≤ x) (h' : x < a + n) :
    m.store a n v x = UInt8.ofNat (v / 256 ^ (x - a)) := by
  simp only [store]
  rw [if_pos ⟨h, h'⟩]

theorem fill_apply_of_not_mem {b : UInt8} (h : x < a ∨ a + n ≤ x) : m.fill a n b x = m x := by
  simp only [fill]
  rw [if_neg (by omega)]

theorem load_store_of_apart (m : Memory) {b k : Nat} (v : Nat) (h : a + n ≤ b ∨ b + k ≤ a) :
    (m.store a n v).load b k = m.load b k :=
  load_congr (fun _ _ _ => store_apply_of_not_mem (by omega))

theorem load_store_mod (m : Memory) (a n v : Nat) : (m.store a n v).load a n = v % 256 ^ n := by
  induction n generalizing a v with
  | zero => simp [load, Nat.mod_one]
  | succ n ih =>
    -- past its first byte the store is a store of the remaining digits
    have htail : (m.store a (n + 1) v).load (a + 1) n = (m.store (a + 1) n (v / 256)).load (a + 1) n := by
      apply load_congr
      intro x hx hlt
      rw [store_apply (by omega) (by omega), store_apply hx hlt, Nat.div_div_eq_div_mul]
      congr 2
      rw [← pow_succ']
      congr 1
      omega
    have hhead : (m.store a (n + 1) v a).toNat = v % 256 := by
      rw [store_apply (le_refl a) (by omega)]
      simp
    rw [load, hhead, htail, ih, pow_succ', Nat.mod_mul]

theorem load_store (m : Memory) (h : v < 256 ^ n) : (m.store a n v).load a n = v := by
  rw [load_store_mod, Nat.mod_eq_of_lt h]

end Memory

end Hairtos.Library
