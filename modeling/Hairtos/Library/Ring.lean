import Mathlib.Data.List.Basic
import Mathlib.Data.Nat.ModEq
import Mathlib.Logic.Function.Basic

namespace Hairtos.Library

def ringContents {A : Type} (slot : Nat → A) (head count capacity : Nat) : List A :=
  (List.range count).map (fun i => slot ((head + i) % capacity))

section

variable {A : Type} {slot slot' : Nat → A} {head count capacity : Nat}

theorem ringContents_zero : ringContents slot head 0 capacity = [] := rfl

theorem ring_index_ne {i : Nat} (hi : i < count) (hcount : count < capacity) :
    (head + i) % capacity ≠ (head + count) % capacity := by
  intro he
  have hmod : i % capacity = count % capacity := Nat.ModEq.add_left_cancel' head he
  rw [Nat.mod_eq_of_lt (hi.trans hcount), Nat.mod_eq_of_lt hcount] at hmod
  omega

theorem ringContents_push (slot slot' : Nat → A) (head : Nat) (hcount : count < capacity)
    (hother : ∀ i, i ≠ (head + count) % capacity → slot' i = slot i) :
    ringContents slot' head (count + 1) capacity =
      ringContents slot head count capacity ++ [slot' ((head + count) % capacity)] := by
  unfold ringContents
  rw [List.range_succ, List.map_append, List.map_singleton]
  congr 1
  apply List.map_congr_left
  intro i hi
  exact hother _ (ring_index_ne (List.mem_range.mp hi) hcount)

theorem ringContents_pop (hhead : head < capacity) (hcount : 0 < count) :
    ringContents slot head count capacity =
      slot head :: ringContents slot ((head + 1) % capacity) (count - 1) capacity := by
  obtain ⟨n, rfl⟩ := Nat.exists_eq_add_of_lt hcount
  simp only [ringContents, Nat.zero_add, Nat.add_sub_cancel, List.range_succ_eq_map, List.map_cons, List.map_map,
    Nat.add_zero, Nat.mod_eq_of_lt hhead]
  congr 1
  apply List.map_congr_left
  intro i _
  simp only [Function.comp_apply]
  rw [Nat.mod_add_mod, Nat.add_assoc, Nat.add_comm 1 i]

theorem ring_tail_push : ((head + count) % capacity + 1) % capacity = (head + (count + 1)) % capacity := by
  rw [Nat.mod_add_mod, Nat.add_assoc]

theorem ring_tail_pop (hcount : 0 < count) :
    ((head + 1) % capacity + (count - 1)) % capacity = (head + count) % capacity := by
  rw [Nat.mod_add_mod]
  congr 1
  omega

end

end Hairtos.Library
