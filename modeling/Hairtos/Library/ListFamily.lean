import Mathlib.Data.List.Basic
import Mathlib.Data.List.Nodup
import Mathlib.Data.List.Perm.Basic
import Mathlib.Data.List.Pairwise
import Mathlib.Order.Lattice

/-!
A family of disjoint sequences over nodes that know the sequence hosting them: the view an
intrusive linked list offers its clients.
-/

namespace Hairtos.Library

variable {K : Type}

structure ListFamily (L N : Type) where
  seq : L → List N
  host : N → Option L
  nodup : ∀ l, (seq l).Nodup
  mem_seq : ∀ l n, n ∈ seq l ↔ host n = some l

def insertSorted {N K : Type} [LT K] [DecidableLT K] (key : N → K) (n : N) : List N → List N
  | [] => [n]
  | x :: xs => if key n < key x then n :: x :: xs else x :: insertSorted key n xs

theorem insertSorted_perm [LT K] [DecidableLT K] (key : N → K) (n : N) (xs : List N) :
    (insertSorted key n xs).Perm (n :: xs) := by
  induction xs with
  | nil => exact List.Perm.refl _
  | cons x xs ih =>
    unfold insertSorted
    split_ifs
    · exact List.Perm.refl _
    · exact (ih.cons x).trans (List.Perm.swap n x xs)

theorem mem_insertSorted [LT K] [DecidableLT K] (key : N → K) (n x : N) (xs : List N) :
    x ∈ insertSorted key n xs ↔ x = n ∨ x ∈ xs := by
  rw [(insertSorted_perm key n xs).mem_iff, List.mem_cons]

theorem insertSorted_pairwise [LinearOrder K] (key : N → K) (n : N) (xs : List N)
    (h : xs.Pairwise (fun a b => key a ≤ key b)) :
    (insertSorted key n xs).Pairwise (fun a b => key a ≤ key b) := by
  induction xs with
  | nil => simp [insertSorted]
  | cons x xs ih =>
    obtain ⟨hx, hxs⟩ := List.pairwise_cons.mp h
    unfold insertSorted
    split_ifs with hlt
    · refine List.pairwise_cons.mpr ⟨?_, h⟩
      intro y hy
      rcases List.mem_cons.mp hy with rfl | hy
      · exact hlt.le
      · exact hlt.le.trans (hx y hy)
    · refine List.pairwise_cons.mpr ⟨?_, ih hxs⟩
      intro y hy
      rcases (mem_insertSorted key n y xs).mp hy with rfl | hy
      · exact not_lt.mp hlt
      · exact hx y hy

theorem sublist_insertSorted [LT K] [DecidableLT K] (key : N → K) (n : N) (xs : List N) :
    xs.Sublist (insertSorted key n xs) := by
  induction xs with
  | nil => exact List.nil_sublist _
  | cons x xs ih =>
    unfold insertSorted
    split_ifs
    · exact List.sublist_cons_self n _
    · exact ih.cons_cons x

theorem erase_insertSorted [DecidableEq N] [LT K] [DecidableLT K] (key : N → K) {n : N} {xs : List N}
    (hn : n ∉ xs) : (insertSorted key n xs).erase n = xs := by
  induction xs with
  | nil => simp [insertSorted]
  | cons x xs ih =>
    rw [List.mem_cons, not_or] at hn
    rw [insertSorted]
    split
    · exact List.erase_cons_head ..
    · rw [List.erase_cons_tail (by simpa using Ne.symm hn.1), ih hn.2]

theorem insertSorted_behind [LinearOrder K] (key : N → K) {m n : N} {xs : List N}
    (h : xs.Pairwise (fun a b => key a ≤ key b)) (hm : m ∈ xs) (hle : key m ≤ key n) :
    [m, n].Sublist (insertSorted key n xs) := by
  induction xs with
  | nil => simp at hm
  | cons x xs ih =>
    obtain ⟨hx, hxs⟩ := List.pairwise_cons.mp h
    have hlt : ¬ key n < key x := by
      rcases List.mem_cons.mp hm with rfl | hm
      · exact not_lt.mpr hle
      · exact not_lt.mpr ((hx m hm).trans hle)
    rw [insertSorted, if_neg hlt]
    rcases List.mem_cons.mp hm with rfl | hm
    · exact (List.singleton_sublist.mpr ((mem_insertSorted key n n xs).mpr (Or.inl rfl))).cons_cons m
    · exact (ih hxs hm).cons x

theorem pair_sublist {a b : N} {xs ys : List N} (h : ys.Sublist xs) (hnodup : xs.Nodup)
    (hab : [a, b].Sublist xs) (ha : a ∈ ys) (hb : b ∈ ys) : [a, b].Sublist ys := by
  have hne : b ≠ a := by
    rintro rfl
    simpa using hnodup.sublist hab
  induction h with
  | slnil => simp at ha
  | @cons ys xs x hs ih =>
    obtain ⟨hx, hxs⟩ := List.nodup_cons.mp hnodup
    cases hab with
    | cons _ hab => exact ih hxs hab ha hb
    | cons_cons _ _ => exact absurd (hs.subset ha) hx
  | @cons_cons ys xs x hs ih =>
    obtain ⟨hx, hxs⟩ := List.nodup_cons.mp hnodup
    cases hab with
    | cons _ hab =>
      have hax : a ≠ x := fun he => hx (he ▸ hab.subset (by simp))
      have hbx : b ≠ x := fun he => hx (he ▸ hab.subset (by simp))
      exact (ih hxs hab (List.mem_of_ne_of_mem hax ha) (List.mem_of_ne_of_mem hbx hb)).cons x
    | cons_cons _ _ => exact (List.singleton_sublist.mpr (List.mem_of_ne_of_mem hne hb)).cons_cons a

theorem takeWhile_eq_filter (p : N → Bool) (xs : List N)
    (h : xs.Pairwise (fun a b => p b = true → p a = true)) : xs.takeWhile p = xs.filter p := by
  induction xs with
  | nil => rfl
  | cons x xs ih =>
    obtain ⟨hx, hxs⟩ := List.pairwise_cons.mp h
    cases hp : p x with
    | true => rw [List.takeWhile_cons_of_pos hp, List.filter_cons_of_pos hp, ih hxs]
    | false =>
      rw [List.takeWhile_cons_of_neg (by simp [hp]), List.filter_cons_of_neg (by simp [hp])]
      symm
      apply List.filter_eq_nil_iff.mpr
      intro y hy hpy
      simp [hx y hy hpy] at hp

theorem dropWhile_eq_filter (p : N → Bool) (xs : List N)
    (h : xs.Pairwise (fun a b => p b = true → p a = true)) : xs.dropWhile p = xs.filter (fun x => !p x) := by
  induction xs with
  | nil => rfl
  | cons x xs ih =>
    obtain ⟨hx, hxs⟩ := List.pairwise_cons.mp h
    cases hp : p x with
    | true => rw [List.dropWhile_cons_of_pos hp, List.filter_cons_of_neg (by simp [hp]), ih hxs]
    | false =>
      rw [List.dropWhile_cons_of_neg (by simp [hp]), List.filter_cons_of_pos (by simp [hp])]
      congr 1
      symm
      apply List.filter_eq_self.mpr
      intro y hy
      cases hy' : p y with
      | true => simp [hx y hy hy'] at hp
      | false => rfl

namespace ListFamily

variable {L N : Type}

def empty : ListFamily L N where
  seq := fun _ => []
  host := fun _ => none
  nodup := fun _ => List.nodup_nil
  mem_seq := by simp

@[simp] theorem empty_seq (l : L) : (empty : ListFamily L N).seq l = [] := rfl

@[simp] theorem empty_host (n : N) : (empty : ListFamily L N).host n = none := rfl

theorem host_of_mem (f : ListFamily L N) {l : L} {n : N} (h : n ∈ f.seq l) : f.host n = some l :=
  (f.mem_seq l n).mp h

theorem not_mem_of_host_none (f : ListFamily L N) {n : N} (h : f.host n = none) (l : L) :
    n ∉ f.seq l := by
  rw [f.mem_seq, h]
  simp

theorem host_of_head (f : ListFamily L N) {l : L} {n : N} {xs : List N} (h : f.seq l = n :: xs) :
    f.host n = some l := by
  apply f.host_of_mem
  rw [h]
  exact List.mem_cons_self

theorem ext_of_eq {f g : ListFamily L N} (hseq : f.seq = g.seq) (hhost : f.host = g.host) : f = g := by
  cases f
  cases g
  obtain rfl : _ = _ := hseq
  obtain rfl : _ = _ := hhost
  rfl

variable [DecidableEq N]

def unlink (f : ListFamily L N) (n : N) : ListFamily L N where
  seq := fun k => (f.seq k).erase n
  host := Function.update f.host n none
  nodup := fun k => (f.nodup k).erase n
  mem_seq := by
    intro k m
    rw [(f.nodup k).mem_erase_iff, f.mem_seq]
    by_cases hm : m = n
    · simp [hm]
    · simp [hm]

theorem unlink_seq (f : ListFamily L N) (n : N) (k : L) : (f.unlink n).seq k = (f.seq k).erase n := rfl

@[simp] theorem unlink_host (f : ListFamily L N) (n : N) : (f.unlink n).host = Function.update f.host n none := rfl

theorem unlink_seq_of_ne (f : ListFamily L N) {n : N} {k : L} (h : f.host n ≠ some k) :
    (f.unlink n).seq k = f.seq k := by
  rw [unlink_seq, List.erase_of_not_mem]
  rwa [f.mem_seq]

theorem unlink_of_none (f : ListFamily L N) {n : N} (h : f.host n = none) : f.unlink n = f := by
  apply ext_of_eq
  · funext k
    apply f.unlink_seq_of_ne
    simp [h]
  · rw [unlink_host, ← h, Function.update_eq_self]

theorem unlink_unlink (f : ListFamily L N) (n : N) : (f.unlink n).unlink n = f.unlink n :=
  (f.unlink n).unlink_of_none (by simp)

variable [DecidableEq L]

def link (f : ListFamily L N) (l : L) (n : N) (xs : List N) (hx : xs.Perm (n :: f.seq l))
    (hn : f.host n = none) : ListFamily L N where
  seq := Function.update f.seq l xs
  host := Function.update f.host n (some l)
  nodup := by
    intro k
    by_cases hk : k = l
    · subst hk
      rw [Function.update_self, hx.nodup_iff, List.nodup_cons]
      exact ⟨f.not_mem_of_host_none hn k, f.nodup k⟩
    · rw [Function.update_of_ne hk]
      exact f.nodup k
  mem_seq := by
    intro k m
    by_cases hk : k = l
    · subst hk
      rw [Function.update_self, hx.mem_iff, List.mem_cons]
      by_cases hm : m = n
      · simp [hm]
      · simp [hm, f.mem_seq]
    · rw [Function.update_of_ne hk]
      by_cases hm : m = n
      · subst hm
        simp only [f.not_mem_of_host_none hn, Function.update_self, Option.some.injEq, false_iff]
        exact Ne.symm hk
      · rw [Function.update_of_ne hm, f.mem_seq]

section Link

variable (f : ListFamily L N) (l : L) (n : N) (xs : List N) (hx : xs.Perm (n :: f.seq l))
  (hn : f.host n = none)

@[simp] theorem link_seq : (f.link l n xs hx hn).seq = Function.update f.seq l xs := rfl

@[simp] theorem link_host : (f.link l n xs hx hn).host = Function.update f.host n (some l) := rfl

end Link

theorem unlink_link_append_self (f : ListFamily L N) (l : L) (n : N) (hn : f.host n = none) :
    (f.link l n _ (List.perm_append_singleton n (f.seq l)) hn).unlink n = f.unlink n := by
  apply ext_of_eq
  · funext k
    by_cases hk : k = l
    · subst hk
      have hmem : n ∉ f.seq k := f.not_mem_of_host_none hn k
      rw [unlink_seq, unlink_seq, link_seq, Function.update_self, List.erase_append_right _ hmem,
        List.erase_of_not_mem hmem,
        List.erase_cons_head, List.append_nil]
    · simp [unlink_seq, hk]
  · simp

theorem unlink_link_sorted [LT K] [DecidableLT K] (f : ListFamily L N) (l : L) (n : N) (key : N → K)
    (hn : f.host n = none) : (f.link l n _ (insertSorted_perm key n (f.seq l)) hn).unlink n = f := by
  apply ext_of_eq
  · funext k
    rw [unlink_seq, link_seq]
    by_cases hk : k = l
    · subst hk
      rw [Function.update_self, erase_insertSorted key (f.not_mem_of_host_none hn k)]
    · rw [Function.update_of_ne hk, List.erase_of_not_mem (f.not_mem_of_host_none hn k)]
  · rw [unlink_host, link_host, Function.update_idem, ← hn, Function.update_eq_self]

end ListFamily

end Hairtos.Library
