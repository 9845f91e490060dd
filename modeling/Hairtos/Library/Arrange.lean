import Hairtos.Library.ListFamily
import Mathlib.Data.List.Induction
import Mathlib.Data.List.Sort

namespace Hairtos.Library

variable {N K : Type} [LinearOrder K]

def arrange (key : N → K) (xs : List N) : List N := xs.insertionSort (fun a b => key a ≤ key b)

theorem arrange_perm (key : N → K) (xs : List N) : (arrange key xs).Perm xs := List.perm_insertionSort _ xs

theorem mem_arrange {key : N → K} {xs : List N} {x : N} : x ∈ arrange key xs ↔ x ∈ xs :=
  (arrange_perm key xs).mem_iff

theorem arrange_pairwise (key : N → K) (xs : List N) : (arrange key xs).Pairwise (fun a b => key a ≤ key b) := by
  induction xs with
  | nil => exact List.Pairwise.nil
  | cons x xs ih =>
    have : Std.Total (fun a b : N => key a ≤ key b) := ⟨fun a b => le_total _ _⟩
    have : IsTrans N (fun a b : N => key a ≤ key b) := ⟨fun a b c => le_trans⟩
    exact List.Pairwise.orderedInsert x _ ih

theorem insertSorted_of_lt {key : N → K} {n : N} {xs : List N} (h : ∀ x ∈ xs, key n < key x) :
    insertSorted key n xs = n :: xs := by
  cases xs with
  | nil => rfl
  | cons x xs => exact if_pos (h x List.mem_cons_self)

theorem orderedInsert_insertSorted (key : N → K) (a n : N) (xs : List N)
    (h : xs.Pairwise (fun a b => key a ≤ key b)) :
    (insertSorted key n xs).orderedInsert (fun a b => key a ≤ key b) a =
      insertSorted key n (xs.orderedInsert (fun a b => key a ≤ key b) a) := by
  induction xs with
  | nil =>
    by_cases hle : key a ≤ key n
    · simp [insertSorted, hle]
    · simp [insertSorted, hle, not_le.mp hle]
  | cons x xs ih =>
    obtain ⟨hx, hxs⟩ := List.pairwise_cons.mp h
    have ih := ih hxs
    simp only [insertSorted, List.orderedInsert_cons]
    by_cases hnx : key n < key x
    · by_cases han : key a ≤ key n
      · simp [insertSorted, hnx, han, han.trans hnx.le]
      · have hna := not_le.mp han
        by_cases hax : key a ≤ key x
        · simp [insertSorted, hnx, han, hna, hax]
        · simp [insertSorted, hnx, han, hax]
    · by_cases hax : key a ≤ key x
      · simp [insertSorted, hnx, hax, hax.trans (not_lt.mp hnx)]
      · simp [insertSorted, hnx, hax, ih]

theorem arrange_append_singleton (key : N → K) (n : N) (xs : List N) :
    arrange key (xs ++ [n]) = insertSorted key n (arrange key xs) := by
  induction xs with
  | nil => rfl
  | cons x xs ih =>
    have hcons : arrange key (x :: xs ++ [n]) =
        (arrange key (xs ++ [n])).orderedInsert (fun a b => key a ≤ key b) x := rfl
    rw [hcons, ih, orderedInsert_insertSorted key x n _ (arrange_pairwise key xs)]
    rfl

theorem filter_insertSorted (key : N → K) (p : N → Bool) (n : N) (xs : List N)
    (h : xs.Pairwise (fun a b => key a ≤ key b)) :
    (insertSorted key n xs).filter p = if p n then insertSorted key n (xs.filter p) else xs.filter p := by
  induction xs with
  | nil => cases hp : p n <;> simp [insertSorted, hp]
  | cons x xs ih =>
    obtain ⟨hx, hxs⟩ := List.pairwise_cons.mp h
    by_cases hlt : key n < key x
    · have hfront : ∀ y ∈ (x :: xs).filter p, key n < key y := by
        intro y hy
        rcases List.mem_cons.mp (List.mem_filter.mp hy).1 with rfl | hy
        · exact hlt
        · exact hlt.trans_le (hx y hy)
      rw [insertSorted, if_pos hlt, insertSorted_of_lt hfront, List.filter_cons]
    · rw [insertSorted, if_neg hlt, List.filter_cons, ih hxs, List.filter_cons]
      split_ifs <;> simp [insertSorted, hlt]

theorem filter_arrange (key : N → K) (p : N → Bool) (xs : List N) :
    (arrange key xs).filter p = arrange key (xs.filter p) := by
  induction xs using List.reverseRec with
  | nil => rfl
  | append_singleton xs n ih =>
    rw [arrange_append_singleton, filter_insertSorted key p n _ (arrange_pairwise key xs), ih, List.filter_append]
    split_ifs with hp
    · rw [List.filter_singleton, hp, cond_true, arrange_append_singleton]
    · rw [List.filter_singleton, Bool.eq_false_of_not_eq_true hp, cond_false, List.append_nil]

theorem map_insertSorted {M : Type} {L : Type} [LT L] [DecidableLT L] (key : N → K) (key' : M → L)
    (g : N → M) (n : N)
    (xs : List N) (h : ∀ x ∈ xs, key n < key x ↔ key' (g n) < key' (g x)) :
    (insertSorted key n xs).map g = insertSorted key' (g n) (xs.map g) := by
  induction xs with
  | nil => rfl
  | cons x xs ih =>
    obtain ⟨hx, hxs⟩ := List.forall_mem_cons.mp h
    simp only [insertSorted, List.map_cons, hx]
    split_ifs
    · rfl
    · rw [List.map_cons, ih hxs]

end Hairtos.Library
