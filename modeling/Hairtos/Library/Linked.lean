import Mathlib.Data.List.Basic

/-!
Singly linked lists of addresses that end in 0, and the loop
`for (node = first; node != NULL; node = next(node))` with an early return. A walk that has more fuel
than the list has nodes is the fold of its body over the list.
-/

namespace Hairtos.Library

variable {next : Nat → Nat} {xs : List Nat}

def Linked (next : Nat → Nat) : Nat → List Nat → Prop
  | node, [] => node = 0
  | node, x :: xs => node = x ∧ x ≠ 0 ∧ Linked next (next x) xs

variable {σ β : Type}

/-- `Except.error` is the early return; `none` is a walk that has not ended. -/
def walk (next : Nat → Nat) (body : σ → Nat → Except β σ) : Nat → σ → Nat → Option (Except β σ)
  | 0, _, _ => none
  | fuel + 1, acc, node =>
    if node = 0 then some (.ok acc)
    else
      match body acc node with
      | .error result => some (.error result)
      | .ok acc => walk next body fuel acc (next node)

theorem Linked.congr {next' : Nat → Nat} {node : Nat} (h : Linked next node xs)
    (hnext : ∀ x ∈ xs, next' x = next x) : Linked next' node xs := by
  induction xs generalizing node with
  | nil => exact h
  | cons x xs ih =>
    obtain ⟨rfl, hne, h⟩ := h
    refine ⟨rfl, hne, ?_⟩
    rw [hnext node (by simp)]
    exact ih h (fun y hy => hnext y (by simp [hy]))

theorem linked_of_successors (start : Nat → Nat) {count : Nat} (hne : ∀ i < count, start i ≠ 0)
    (hnext : ∀ i < count, next (start i) = if i + 1 < count then start (i + 1) else 0) (k i : Nat)
    (h : i + k = count) :
    Linked next (if i < count then start i else 0) ((List.range' i k).map start) := by
  induction k generalizing i with
  | zero => exact if_neg (by omega)
  | succ k ih =>
    have hi : i < count := by omega
    rw [if_pos hi, List.range'_succ, List.map_cons]
    refine ⟨rfl, hne i hi, ?_⟩
    rw [hnext i hi]
    exact ih (i + 1) (by omega)

theorem Linked.walk_eq {node : Nat} (h : Linked next node xs)
    (body : σ → Nat → Except β σ) {fuel : Nat} (hfuel : xs.length < fuel) (acc : σ) :
    walk next body fuel acc node = some (xs.foldlM body acc) := by
  induction xs generalizing node fuel acc with
  | nil =>
    obtain ⟨fuel, rfl⟩ := Nat.exists_eq_succ_of_ne_zero (Nat.ne_of_gt hfuel)
    have hend : node = 0 := h
    simp only [walk]
    rw [if_pos hend]
    rfl
  | cons x xs ih =>
    obtain ⟨fuel, rfl⟩ := Nat.exists_eq_succ_of_ne_zero (Nat.ne_of_gt (Nat.zero_lt_of_lt hfuel))
    obtain ⟨rfl, hne, h⟩ := h
    simp only [List.length_cons] at hfuel
    simp only [walk, List.foldlM_cons]
    rw [if_neg hne]
    cases hb : body acc node with
    | error result => rfl
    | ok acc' => exact ih h (by omega) acc'

section Search

variable (p : Nat → Prop) [DecidablePred p]

def seek (_ : Unit) (node : Nat) : Except Nat Unit := if p node then .error node else .ok ()

theorem foldlM_seek_of_none (h : ∀ x ∈ xs, ¬ p x) : xs.foldlM (seek p) () = .ok () := by
  induction xs with
  | nil => rfl
  | cons x xs ih =>
    have hx : seek p () x = .ok () := if_neg (h x (by simp))
    rw [List.foldlM_cons, hx]
    exact ih (fun y hy => h y (by simp [hy]))

theorem foldlM_seek_of_first {ys : List Nat} {x : Nat} (h : ∀ y ∈ xs, ¬ p y) (hx : p x) :
    (xs ++ x :: ys).foldlM (seek p) () = .error x := by
  induction xs with
  | nil =>
    have hx : seek p () x = .error x := if_pos hx
    rw [List.nil_append, List.foldlM_cons, hx]
    rfl
  | cons y xs ih =>
    have hy : seek p () y = .ok () := if_neg (h y (by simp))
    rw [List.cons_append, List.foldlM_cons, hy]
    exact ih (fun z hz => h z (by simp [hz]))

end Search

end Hairtos.Library
