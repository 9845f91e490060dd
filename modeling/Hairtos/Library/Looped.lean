import Mathlib.Data.List.Chain
import Mathlib.Data.List.Nodup

namespace Hairtos.Library

variable {A : Type}

def Looped (next : A → Option A) (r : A) (xs : List A) : Prop :=
  List.IsChain (fun x y => next x = some y) (r :: xs ++ [r])

namespace Looped

variable {next next' : A → Option A} {r n p q : A} {xs ys : List A}

theorem empty_iff : Looped next r [] ↔ next r = some r := by simp [Looped]

theorem congr (h : Looped next r xs) (hnext : ∀ z ∈ r :: xs, next' z = next z) : Looped next' r xs := by
  apply List.IsChain.imp_of_mem_imp ?_ h
  intro x y hx _ hxy
  rw [hnext x ?_]
  · exact hxy
  · rcases List.mem_append.mp hx with hx | hx
    · exact hx
    · exact List.mem_singleton.mp hx ▸ List.mem_cons_self

theorem halves (h : Looped next r (xs ++ ys)) (hp : (r :: xs).getLast? = some p) (hq : (ys ++ [r]).head? = some q) :
    List.IsChain (fun x y => next x = some y) (r :: xs) ∧ next p = some q ∧
      List.IsChain (fun x y => next x = some y) (ys ++ [r]) := by
  have hchain : List.IsChain (fun x y => next x = some y) ((r :: xs) ++ (ys ++ [r])) := by
    simpa [Looped] using h
  obtain ⟨hleft, hright, hmeet⟩ := List.isChain_append.mp hchain
  exact ⟨hleft, hmeet p hp q hq, hright⟩

theorem of_halves (hleft : List.IsChain (fun x y => next x = some y) (r :: xs))
    (hright : List.IsChain (fun x y => next x = some y) (ys ++ [r])) (hp : (r :: xs).getLast? = some p)
    (hq : (ys ++ [r]).head? = some q) (hmeet : next p = some q) : Looped next r (xs ++ ys) := by
  have hchain : List.IsChain (fun x y => next x = some y) ((r :: xs) ++ (ys ++ [r])) := by
    refine List.isChain_append.mpr ⟨hleft, hright, fun x hx y hy => ?_⟩
    obtain rfl := Option.some.inj (hp.symm.trans hx)
    obtain rfl := Option.some.inj (hq.symm.trans hy)
    exact hmeet
  simpa [Looped] using hchain

theorem halves_congr {m : A} (hleft : List.IsChain (fun x y => next x = some y) (r :: xs))
    (hright : List.IsChain (fun x y => next x = some y) (ys ++ [r])) (hpm : next p = some m)
    (hm : m ∉ xs) (hm' : m ∉ (ys ++ [r]).tail) (hothers : ∀ z ∈ r :: xs ++ ys, z ≠ p → next' z = next z) :
    List.IsChain (fun x y => next' x = some y) (r :: xs) ∧ List.IsChain (fun x y => next' x = some y)
      (ys ++ [r]) := by
  have hstep : ∀ x y, x ∈ r :: xs ++ ys → y ≠ m → next x = some y → next' x = some y := by
    intro x y hx hy hxy
    rw [hothers x hx]
    · exact hxy
    · rintro rfl
      exact hy (Option.some.inj (hxy.symm.trans hpm))
  constructor
  · refine List.IsChain.imp_of_mem_tail_imp (fun x y hx hy hxy => hstep x y ?_ ?_ hxy) hleft
    · exact List.mem_append_left _ hx
    · rintro rfl
      exact hm hy
  · refine List.IsChain.imp_of_mem_tail_imp (fun x y hx hy hxy => hstep x y ?_ ?_ hxy) hright
    · simp only [List.mem_append, List.mem_cons] at hx ⊢
      tauto
    · rintro rfl
      exact hm' hy

theorem head_fresh (hnodup : (r :: xs ++ ys).Nodup) (hq : (ys ++ [r]).head? = some q) :
    q ∉ xs ∧ q ∉ (ys ++ [r]).tail := by
  cases ys with
  | nil =>
    obtain rfl : r = q := Option.some.inj hq
    simp only [List.append_nil, List.nodup_cons] at hnodup
    exact ⟨hnodup.1, by simp⟩
  | cons y ys =>
    obtain rfl : y = q := Option.some.inj hq
    simp only [List.cons_append, List.nodup_cons, List.nodup_append', List.mem_append, List.mem_cons,
      List.disjoint_cons_right, List.tail_cons] at hnodup ⊢
    tauto

theorem insert (h : Looped next r (xs ++ ys)) (hnodup : (r :: xs ++ ys).Nodup) (hn : n ∉ r :: xs ++ ys)
    (hp : (r :: xs).getLast? = some p) (hq : (ys ++ [r]).head? = some q) (hnp : next' p = some n)
    (hnn : next' n = some q) (hothers : ∀ z, z ≠ p → z ≠ n → next' z = next z) :
    Looped next' r (xs ++ n :: ys) := by
  obtain ⟨hleft, hmeet, hright⟩ := h.halves hp hq
  obtain ⟨hfresh, hfresh'⟩ := head_fresh hnodup hq
  have hkeep : ∀ z ∈ r :: xs ++ ys, z ≠ p → next' z = next z := by
    intro z hz hzp
    apply hothers z hzp
    rintro rfl
    exact hn hz
  obtain ⟨hleft', hright'⟩ := halves_congr hleft hright hmeet hfresh hfresh' hkeep
  refine of_halves hleft' (List.isChain_cons.mpr ⟨fun y hy => ?_, hright'⟩) hp rfl hnp
  rw [hnn, ← hq]
  exact hy

theorem remove (h : Looped next r (xs ++ n :: ys)) (hnodup : (r :: xs ++ n :: ys).Nodup)
    (hp : (r :: xs).getLast? = some p) (hq : (ys ++ [r]).head? = some q) (hpq : next' p = some q)
    (hothers : ∀ z, z ≠ p → z ≠ n → next' z = next z) : Looped next' r (xs ++ ys) := by
  obtain ⟨hleft, hmeet, hright⟩ := h.halves hp rfl
  obtain ⟨hfresh, hfresh'⟩ := head_fresh hnodup rfl
  have hkeep : ∀ z ∈ r :: xs ++ ys, z ≠ p → next' z = next z := by
    intro z hz hzp
    apply hothers z hzp
    rintro rfl
    have hmiddle := (List.nodup_middle.mp hnodup)
    exact (List.nodup_cons.mp hmiddle).1 hz
  obtain ⟨hleft', hright'⟩ :=
    halves_congr hleft hright.tail hmeet hfresh (fun hm => hfresh' (List.mem_of_mem_tail hm)) hkeep
  exact of_halves hleft' hright' hp hq hpq

theorem getLast?_cons_reverse (r : A) (ys : List A) : (r :: ys.reverse).getLast? = (ys ++ [r]).head? := by
  rw [← List.getLast?_reverse, List.reverse_append]
  rfl

theorem head?_reverse_append (r : A) (xs : List A) : (xs.reverse ++ [r]).head? = (r :: xs).getLast? := by
  rw [← List.head?_reverse, List.reverse_cons]

theorem perm_reverse (r : A) (xs ys : List A) : (r :: ys.reverse ++ xs.reverse).Perm (r :: xs ++ ys) := by
  rw [List.cons_append, ← List.reverse_append]
  exact (List.reverse_perm _).cons r

theorem successor (h : Looped next r (xs ++ n :: ys)) (hq : (ys ++ [r]).head? = some q) : next n = some q := by
  have hlast : (r :: (xs ++ [n])).getLast? = some n := by
    rw [← List.cons_append, List.getLast?_concat]
  rw [List.append_cons] at h
  exact (h.halves hlast hq).2.1

theorem successor_reverse (h : Looped next r (xs ++ n :: ys).reverse) (hp : (r :: xs).getLast? = some p) :
    next n = some p := by
  rw [List.reverse_append, List.reverse_cons, List.append_assoc, List.singleton_append] at h
  exact h.successor ((head?_reverse_append r xs).trans hp)

theorem first (h : Looped next r xs) : next r = (xs ++ [r]).head? := by
  obtain ⟨q, hq⟩ : ∃ q, (xs ++ [r]).head? = some q := by cases xs <;> exact ⟨_, rfl⟩
  rw [hq]
  rw [← List.nil_append xs] at h
  exact (h.halves rfl hq).2.1

theorem first_reverse (h : Looped next r xs.reverse) : next r = (r :: xs).getLast? := by
  rw [h.first, head?_reverse_append]

theorem insert_reverse (h : Looped next r (xs ++ ys).reverse) (hnodup : (r :: xs ++ ys).Nodup)
    (hn : n ∉ r :: xs ++ ys)
    (hp : (r :: xs).getLast? = some p) (hq : (ys ++ [r]).head? = some q) (hnq : next' q = some n)
    (hnn : next' n = some p) (hothers : ∀ z, z ≠ q → z ≠ n → next' z = next z) :
    Looped next' r (xs ++ n :: ys).reverse := by
  have hperm := perm_reverse r xs ys
  rw [List.reverse_append] at h
  rw [List.reverse_append, List.reverse_cons, List.append_assoc, List.singleton_append]
  exact h.insert (hperm.nodup_iff.mpr hnodup) (fun hm => hn (hperm.mem_iff.mp hm))
    ((getLast?_cons_reverse r ys).trans hq) ((head?_reverse_append r xs).trans hp) hnq hnn hothers

theorem remove_reverse (h : Looped next r (xs ++ n :: ys).reverse) (hnodup : (r :: xs ++ n :: ys).Nodup)
    (hp : (r :: xs).getLast? = some p) (hq : (ys ++ [r]).head? = some q) (hqp : next' q = some p)
    (hothers : ∀ z, z ≠ q → z ≠ n → next' z = next z) : Looped next' r (xs ++ ys).reverse := by
  have hperm : (r :: ys.reverse ++ n :: xs.reverse).Perm (r :: xs ++ n :: ys) := by
    refine List.perm_middle.trans (List.Perm.trans ?_ List.perm_middle.symm)
    exact (perm_reverse r xs ys).cons n
  rw [List.reverse_append, List.reverse_cons, List.append_assoc, List.singleton_append] at h
  rw [List.reverse_append]
  exact h.remove (hperm.nodup_iff.mpr hnodup) ((getLast?_cons_reverse r ys).trans hq)
    ((head?_reverse_append r xs).trans hp) hqp hothers

theorem reverse_iff :
    Looped next r xs.reverse ↔ List.IsChain (fun x y => next y = some x) (r :: xs ++ [r]) := by
  have hreverse : r :: xs.reverse ++ [r] = (r :: xs ++ [r]).reverse := by simp
  rw [Looped, hreverse, List.isChain_reverse]

end Looped

theorem exists_predecessor {R : A → A → Prop} {x y : A} {ys : List A} (h : List.IsChain R (y :: ys))
    (hx : x ∈ ys) :
    ∃ z ∈ y :: ys, R z x := by
  induction ys generalizing y with
  | nil => exact absurd hx List.not_mem_nil
  | cons w ys ih =>
    obtain ⟨hyw, htail⟩ := List.isChain_cons_cons.mp h
    rcases List.mem_cons.mp hx with rfl | hx
    · exact ⟨y, List.mem_cons_self, hyw⟩
    · obtain ⟨z, hz, hzx⟩ := ih htail hx
      exact ⟨z, List.mem_cons_of_mem _ hz, hzx⟩

theorem nodup_of_predecessors {previous : A → Option A} {r : A} {xs : List A}
    (h : List.IsChain (fun x y => previous y = some x) (r :: xs)) (hr : r ∉ xs) : (r :: xs).Nodup := by
  induction xs generalizing r with
  | nil => exact List.nodup_singleton r
  | cons x xs ih =>
    obtain ⟨hrx, htail⟩ := List.isChain_cons_cons.mp h
    refine List.nodup_cons.mpr ⟨hr, ih htail ?_⟩
    -- A second `x` would be reached from `r` as the first is.
    intro hx
    obtain ⟨z, hz, hzx⟩ := exists_predecessor htail hx
    obtain rfl : r = z := Option.some.inj (hrx.symm.trans hzx)
    exact hr hz

end Hairtos.Library
