import Hairtos.Invariant.Blocking
import Hairtos.Library.Arrival

namespace Hairtos

open Library

section

variable {L N : Type} [DecidableEq L] [DecidableEq N]

inductive WaitLists.Shifts : WaitLists L N → List N → WaitLists L N → Prop
  | kept {w w' : WaitLists L N} (agrees : w.Agrees w') : Shifts w [] w'
  | left (w : WaitLists L N) (n : N) : Shifts w [] { w with lists := w.lists.unlink n }
  | entered (w : WaitLists L N) (l : L) (n : N) (free : w.lists.host n = none) : Shifts w [n] (waitListInsert w l n).1
  | changed (w : WaitLists L N) (n : N) (priority : Nat) : Shifts w [n] (w.move n priority)
  | trans {w w' w'' : WaitLists L N} {ns ms : List N} (h : Shifts w ns w') (h' : Shifts w' ms w'') :
      Shifts w (ns ++ ms) w''

def WaitLists.InOrder (w : WaitLists L N) (c : Arrivals N) : Prop :=
  ∀ l, (w.lists.seq l).Pairwise (Precedes w.priority c.time)

namespace WaitLists

variable {w w' : WaitLists L N} {ns : List N}

omit [DecidableEq L] in
theorem mem_unlink {l : L} {m n : N} (h : m ∈ (w.lists.unlink n).seq l) : m ≠ n ∧ m ∈ w.lists.seq l := by
  rwa [ListFamily.unlink_seq, (w.lists.nodup l).mem_erase_iff] at h

theorem insert_seq {l : L} {n : N} (h : w.lists.host n = none) (k : L) :
    (waitListInsert w l n).1.lists.seq k =
      if k = l then insertSorted w.priority n (w.lists.seq k) else w.lists.seq k := by
  rw [waitListInsert_eq w l n h]
  split_ifs with hk
  · subst hk
    simp
  · simp [hk]

theorem insert_priority {l : L} {n : N} (h : w.lists.host n = none) :
    (waitListInsert w l n).1.priority = w.priority := by
  rw [waitListInsert_eq w l n h]

theorem move_seq (n : N) (p : Nat) (k : L) :
    (w.move n p).lists.seq k =
      if w.lists.host n = some k then
        insertSorted (Function.update w.priority n p) n ((w.lists.seq k).erase n)
      else w.lists.seq k := by
  unfold move
  cases hh : w.lists.host n with
  | none =>
    rw [if_neg (by simp)]
    exact w.lists.unlink_seq_of_ne (by simp [hh])
  | some l =>
    rw [put, insert_seq (by simp)]
    by_cases hk : k = l
    · simp [hk, ListFamily.unlink_seq]
    · rw [if_neg hk, if_neg (by simpa using Ne.symm hk)]
      exact w.lists.unlink_seq_of_ne (by simpa [hh] using Ne.symm hk)

theorem move_priority (n : N) (p : Nat) : (w.move n p).priority = Function.update w.priority n p := by
  unfold move
  cases w.lists.host n with
  | none => rfl
  | some l => exact insert_priority (by simp)

omit [DecidableEq L] [DecidableEq N] in
theorem Agrees.precedes (h : w.Agrees w') {time : N → Nat} {l : L} {a b : N} (ha : a ∈ w.lists.seq l)
    (hb : b ∈ w.lists.seq l) (hab : Precedes w.priority time a b) : Precedes w'.priority time a b :=
  hab.congr (h.priority a (by simp [w.lists.host_of_mem ha])) (h.priority b (by simp [w.lists.host_of_mem hb])) rfl rfl

theorem InOrder.insert {c : Arrivals N} (h : w.InOrder c) (l : L) {n : N} (hn : w.lists.host n = none) :
    (waitListInsert w l n).1.InOrder (c.arrive n) := by
  have hne : ∀ k m, m ∈ w.lists.seq k → m ≠ n := by
    rintro k m hm rfl
    exact w.lists.not_mem_of_host_none hn k hm
  have hold : ∀ k, (w.lists.seq k).Pairwise (Precedes w.priority (c.arrive n).time) := by
    intro k
    refine (h k).imp_of_mem (fun {a b} ha hb hab => hab.congr rfl rfl ?_ ?_)
    · exact c.arrive_of_ne (hne k a ha)
    · exact c.arrive_of_ne (hne k b hb)
  intro k
  rw [insert_seq hn, insert_priority hn]
  split_ifs with hk
  · refine insertSorted_precedes (hold k) (fun x hx => ?_)
    rw [c.arrive_self, c.arrive_of_ne (hne k x hx)]
    exact c.past x
  · exact hold k

omit [DecidableEq L] in
theorem InOrder.left {c : Arrivals N} (h : w.InOrder c) (n : N) :
    InOrder { w with lists := w.lists.unlink n } c := fun l => (h l).sublist List.erase_sublist

omit [DecidableEq L] [DecidableEq N] in
theorem InOrder.agrees {c : Arrivals N} (h : w.InOrder c) (ha : w.Agrees w') : w'.InOrder c := by
  intro l
  rw [ha.lists]
  exact (h l).imp_of_mem (fun hx hy => ha.precedes hx hy)

theorem InOrder.changed {c : Arrivals N} (h : w.InOrder c) (n : N) (p : Nat) : (w.move n p).InOrder (c.arrive n) := by
  have hfree : InOrder { lists := w.lists.unlink n, priority := Function.update w.priority n p } c := by
    intro l
    refine (h.left n l).imp_of_mem (fun {a b} ha hb hab => hab.congr ?_ ?_ rfl rfl)
    · exact Function.update_of_ne (mem_unlink ha).1 _ _
    · exact Function.update_of_ne (mem_unlink hb).1 _ _
  unfold move
  cases w.lists.host n with
  | some l => exact hfree.insert l (by simp)
  | none =>
    intro l
    refine (hfree l).imp_of_mem (fun {a b} ha hb hab => hab.congr rfl rfl ?_ ?_)
    · exact c.arrive_of_ne (mem_unlink ha).1
    · exact c.arrive_of_ne (mem_unlink hb).1

theorem Shifts.inOrder (h : w.Shifts ns w') {c : Arrivals N} (hc : w.InOrder c) : w'.InOrder (c.arriveAll ns) := by
  induction h generalizing c with
  | kept ha => exact hc.agrees ha
  | left w n => exact hc.left n
  | entered w l n hn => exact hc.insert l hn
  | changed w n p => exact hc.changed n p
  | trans _ _ ih ih' =>
    rw [Arrivals.arriveAll_append]
    exact ih' (ih hc)

theorem Shifts.stays (h : w.Shifts ns w') {l : L} {n : N} (hn : n ∉ ns) (hmem : n ∈ w'.lists.seq l) :
    n ∈ w.lists.seq l ∧ w'.priority n = w.priority n := by
  induction h with
  | kept ha =>
    rw [ha.lists] at hmem
    exact ⟨hmem, ha.priority n (by simp [ListFamily.host_of_mem _ hmem])⟩
  | left w m => exact ⟨(mem_unlink hmem).2, rfl⟩
  | entered w k m hfree =>
    have hne : n ≠ m := by simpa using hn
    rw [insert_seq hfree] at hmem
    refine ⟨?_, by rw [insert_priority hfree]⟩
    split_ifs at hmem
    · exact ((mem_insertSorted _ _ _ _).mp hmem).resolve_left hne
    · exact hmem
  | changed w m p =>
    have hne : n ≠ m := by simpa using hn
    rw [move_seq] at hmem
    refine ⟨?_, by rw [move_priority, Function.update_of_ne hne]⟩
    split_ifs at hmem
    · exact List.mem_of_mem_erase (((mem_insertSorted _ _ _ _).mp hmem).resolve_left hne)
    · exact hmem
  | trans _ _ ih ih' =>
    rw [List.mem_append, not_or] at hn
    obtain ⟨hmid, hprio⟩ := ih' hn.2 hmem
    obtain ⟨hfirst, hprio'⟩ := ih hn.1 hmid
    exact ⟨hfirst, hprio.trans hprio'⟩

theorem Shifts.order (h : w.Shifts ns w') {l : L} {a b : N} (ha : a ∉ ns) (hb : b ∉ ns)
    (hma : a ∈ w'.lists.seq l) (hmb : b ∈ w'.lists.seq l) (hab : [a, b].Sublist (w.lists.seq l)) :
    [a, b].Sublist (w'.lists.seq l) := by
  induction h with
  | kept hagrees => rwa [hagrees.lists]
  | left w n => exact pair_sublist List.erase_sublist (w.lists.nodup l) hab hma hmb
  | entered w k n hfree =>
    rw [insert_seq hfree]
    split_ifs
    · exact hab.trans (sublist_insertSorted _ _ _)
    · exact hab
  | changed w n p =>
    rw [move_seq]
    split_ifs
    · have hne : ∀ {m}, m ∉ [n] → m ∈ w.lists.seq l → m ∈ (w.lists.seq l).erase n := fun hm hmem =>
        (List.mem_erase_of_ne (by simpa using hm)).mpr hmem
      refine (pair_sublist List.erase_sublist (w.lists.nodup l) hab ?_ ?_).trans (sublist_insertSorted _ _ _)
      · exact hne ha (hab.subset (by simp))
      · exact hne hb (hab.subset (by simp))
    · exact hab
  | trans h₁ h₂ ih ih' =>
    rw [List.mem_append, not_or] at ha hb
    exact ih' ha.2 hb.2 hma hmb (ih ha.1 hb.1 (h₂.stays ha.2 hma).1 (h₂.stays hb.2 hmb).1 hab)

end WaitLists

end

end Hairtos
