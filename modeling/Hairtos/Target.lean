import Mathlib.Algebra.Order.Group.Nat
import Mathlib.Data.Nat.Bitwise
import Mathlib.Tactic.Ring

/-!
What the components that lay records over raw bytes take from the compiler: the width of `size_t` and
`uintptr_t`, the size of a pointer in bytes, `alignof(max_align_t)` and the sizes of the records. Unsigned
arithmetic is modulo two to the width.
-/

namespace Hairtos

structure Target where
  width : Nat
  wordBytes : Nat
  alignmentBits : Nat
  -- `sizeof(hr_heap_lab_block_t)`
  blockBytes : Nat
  -- `sizeof(he_event_t)`
  eventBytes : Nat
  word_holds : 2 ^ width ≤ 256 ^ wordBytes
  wordBytes_pos : 0 < wordBytes
  block_fields : 4 * wordBytes + 5 ≤ blockBytes
  block_fits : blockBytes + 2 * 2 ^ alignmentBits ≤ 2 ^ width
  event_fields : wordBytes + 12 ≤ eventBytes
  event_fits : eventBytes < 2 ^ 16

def Target.alignment (t : Target) : Nat := 2 ^ t.alignmentBits

def Target.cortexM3 : Target where
  width := 32
  wordBytes := 4
  alignmentBits := 3
  blockBytes := 24
  eventBytes := 16
  word_holds := by decide
  wordBytes_pos := by decide
  block_fields := by decide
  block_fits := by decide
  event_fields := by decide
  event_fits := by decide

def roundUp (alignment value : Nat) : Nat := (value + (alignment - 1)) / alignment * alignment

theorem dvd_roundUp (alignment value : Nat) : alignment ∣ roundUp alignment value := Nat.dvd_mul_left _ _

theorem le_roundUp {alignment : Nat} (h : 0 < alignment) (value : Nat) : value ≤ roundUp alignment value := by
  have := Nat.div_add_mod (value + (alignment - 1)) alignment
  have := Nat.mod_lt (value + (alignment - 1)) h
  rw [Nat.mul_comm] at *
  simp only [roundUp]
  omega

theorem roundUp_lt {alignment : Nat} (h : 0 < alignment) (value : Nat) :
    roundUp alignment value < value + alignment := by
  have := Nat.div_mul_le_self (value + (alignment - 1)) alignment
  simp only [roundUp]
  omega

namespace Target

variable (t : Target)

def sizeMax : Nat := 2 ^ t.width - 1

def add (a b : Nat) : Nat := (a + b) % 2 ^ t.width

def sub (a b : Nat) : Nat := (a + (2 ^ t.width - b)) % 2 ^ t.width

def complement (a : Nat) : Nat := 2 ^ t.width - (a + 1)

theorem alignment_pos : 0 < t.alignment := Nat.two_pow_pos _

theorem alignment_lt : t.alignment < 2 ^ t.width := by
  have := t.block_fits
  have := t.alignment_pos
  simp only [alignment] at *
  omega

theorem alignmentBits_le : t.alignmentBits ≤ t.width :=
  Nat.le_of_lt ((Nat.pow_lt_pow_iff_right (by decide)).mp t.alignment_lt)

theorem alignment_dvd : t.alignment ∣ 2 ^ t.width := Nat.pow_dvd_pow 2 t.alignmentBits_le

variable {t}

theorem add_eq {a b : Nat} (h : a + b < 2 ^ t.width) : t.add a b = a + b := Nat.mod_eq_of_lt h

theorem add_lt (a b : Nat) : t.add a b < 2 ^ t.width := Nat.mod_lt _ (Nat.two_pow_pos _)

theorem sub_eq {a b : Nat} (hb : b ≤ a) (ha : a < 2 ^ t.width) : t.sub a b = a - b := by
  have : a + (2 ^ t.width - b) = a - b + 2 ^ t.width := by omega
  rw [sub, this, Nat.add_mod_right, Nat.mod_eq_of_lt (by omega)]

theorem mask_eq : t.sub t.alignment 1 = t.alignment - 1 := sub_eq t.alignment_pos t.alignment_lt

theorem and_complement_mask {x : Nat} (h : x < 2 ^ t.width) :
    x &&& t.complement (t.alignment - 1) = x / t.alignment * t.alignment := by
  have hmask : t.alignment - 1 < 2 ^ t.width := lt_of_le_of_lt (Nat.sub_le _ _) t.alignment_lt
  apply Nat.eq_of_testBit_eq
  intro i
  rw [Nat.testBit_and, complement, Nat.testBit_two_pow_sub_succ hmask]
  simp only [alignment, Nat.testBit_two_pow_sub_one, Nat.testBit_mul_two_pow, Nat.testBit_div_two_pow]
  by_cases hi : t.alignmentBits ≤ i
  · have hback : i - t.alignmentBits + t.alignmentBits = i := by omega
    by_cases hw : i < t.width
    · simp [hi, hw, hback]
    · have hbit : x.testBit i = false :=
        Nat.testBit_lt_two_pow (lt_of_lt_of_le h (Nat.pow_le_pow_right (by decide) (by omega)))
      simp [hi, hback, hbit]
  · have hlow : i < t.alignmentBits := by omega
    simp [hi, hlow]

theorem add_and_complement {value : Nat} (h : value + (t.alignment - 1) < 2 ^ t.width) :
    t.add value (t.alignment - 1) &&& t.complement (t.alignment - 1) = roundUp t.alignment value := by
  rw [add_eq h, and_complement_mask h]
  rfl

theorem le_roundUp_iff (value : Nat) :
    2 ^ t.width ≤ roundUp t.alignment value ↔ 2 ^ t.width ≤ value + (t.alignment - 1) := by
  constructor
  · intro h
    exact le_trans h (Nat.div_mul_le_self _ _)
  · intro h
    obtain ⟨k, hk⟩ := t.alignment_dvd
    rw [hk, Nat.mul_comm] at h ⊢
    exact Nat.mul_le_mul_right _ ((Nat.le_div_iff_mul_le t.alignment_pos).mpr h)

theorem add_and_complement_of_wrap {value : Nat} (hv : value < 2 ^ t.width)
    (h : 2 ^ t.width ≤ value + (t.alignment - 1)) :
    t.add value (t.alignment - 1) &&& t.complement (t.alignment - 1) = 0 := by
  have hpos := t.alignment_pos
  have hlt := t.alignment_lt
  have hsum : t.add value (t.alignment - 1) = value + (t.alignment - 1) - 2 ^ t.width := by
    rw [add, Nat.mod_eq_sub_mod h, Nat.mod_eq_of_lt (by omega)]
  rw [and_complement_mask (add_lt _ _), hsum, Nat.div_eq_of_lt (by omega), Nat.zero_mul]

end Target

end Hairtos
