import Hairtos.Library.ListFamily
import Mathlib.Logic.Function.Basic

namespace Hairtos.Library

variable {N K : Type}

structure Arrivals (N : Type) where
  now : Nat
  time : N → Nat
  past : ∀ n, time n < now

def Arrivals.none : Arrivals N := ⟨1, fun _ => 0, fun _ => Nat.one_pos⟩

def Precedes [LT K] (key : N → K) (time : N → Nat) (a b : N) : Prop :=
  key a < key b ∨ key a = key b ∧ time a < time b

theorem Precedes.congr [LT K] {key key' : N → K} {time time' : N → Nat} {a b : N} (h : Precedes key time a b)
    (ha : key' a = key a) (hb : key' b = key b) (hta : time' a = time a) (htb : time' b = time b) :
    Precedes key' time' a b := by
  unfold Precedes at h ⊢
  rwa [ha, hb, hta, htb]

theorem Precedes.trans [Preorder K] {key : N → K} {time : N → Nat} {a b c : N} (h : Precedes key time a b)
    (h' : Precedes key time b c) : Precedes key time a c := by
  rcases h with h | ⟨h, ht⟩
  · rcases h' with h' | ⟨h', -⟩
    · exact Or.inl (h.trans h')
    · exact Or.inl (h' ▸ h)
  · rcases h' with h' | ⟨h', ht'⟩
    · exact Or.inl (h ▸ h')
    · exact Or.inr ⟨h.trans h', ht.trans ht'⟩

theorem insertSorted_precedes [LinearOrder K] {key : N → K} {time : N → Nat} {n : N} {xs : List N}
    (h : xs.Pairwise (Precedes key time)) (hn : ∀ x ∈ xs, time x < time n) :
    (insertSorted key n xs).Pairwise (Precedes key time) := by
  induction xs with
  | nil => simp [insertSorted]
  | cons x xs ih =>
    obtain ⟨hx, hxs⟩ := List.pairwise_cons.mp h
    unfold insertSorted
    split_ifs with hlt
    · refine List.pairwise_cons.mpr ⟨?_, h⟩
      intro y hy
      rcases List.mem_cons.mp hy with rfl | hy
      · exact Or.inl hlt
      · exact Precedes.trans (Or.inl hlt) (hx y hy)
    · refine List.pairwise_cons.mpr ⟨?_, ih hxs (fun y hy => hn y (List.mem_cons_of_mem x hy))⟩
      intro y hy
      rcases (mem_insertSorted key n y xs).mp hy with rfl | hy
      · rcases lt_or_eq_of_le (not_lt.mp hlt) with hlt | heq
        · exact Or.inl hlt
        · exact Or.inr ⟨heq, hn x List.mem_cons_self⟩
      · exact hx y hy

variable [DecidableEq N]

def Arrivals.arrive (c : Arrivals N) (n : N) : Arrivals N where
  now := c.now + 1
  time := Function.update c.time n c.now
  past := by
    intro m
    by_cases hm : m = n
    · simp [hm]
    · rw [Function.update_of_ne hm]
      exact (c.past m).trans (Nat.lt_succ_self _)

def Arrivals.arriveAll (c : Arrivals N) (ns : List N) : Arrivals N := ns.foldl Arrivals.arrive c

@[simp] theorem Arrivals.arrive_self (c : Arrivals N) (n : N) : (c.arrive n).time n = c.now := by
  simp [Arrivals.arrive]

@[simp] theorem Arrivals.arrive_of_ne (c : Arrivals N) {n m : N} (h : m ≠ n) : (c.arrive n).time m = c.time m := by
  simp [Arrivals.arrive, h]

theorem Arrivals.arriveAll_append (c : Arrivals N) (ns ms : List N) :
    c.arriveAll (ns ++ ms) = (c.arriveAll ns).arriveAll ms :=
  List.foldl_append

end Hairtos.Library
