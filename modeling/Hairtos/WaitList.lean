import Hairtos.List
import Mathlib.Order.Nat

/-!
The priority-ordered wait lists of `hr_wait.c`. `priority` collects the `priority` fields of the
wait nodes.
-/

namespace Hairtos

open Library

variable {L N : Type}

structure WaitLists (L N : Type) where
  lists : ListFamily L N
  priority : N → Nat

def waitListIsEmpty (w : WaitLists L N) (l : L) : Bool := listIsEmpty w.lists l

def waitListPeek (w : WaitLists L N) (l : L) : Option N := listFront w.lists l

def waitListOrderIsValid (priority : N → Nat) (first : Bool) (previous : Nat) : List N → Bool
  | [] => true
  | n :: rest =>
    if !first && priority n < previous then false else waitListOrderIsValid priority false (priority n) rest

structure WaitLists.Agrees (w w' : WaitLists L N) : Prop where
  lists : w'.lists = w.lists
  priority : ∀ n, w.lists.host n ≠ none → w'.priority n = w.priority n

theorem WaitLists.Agrees.refl (w : WaitLists L N) : w.Agrees w := ⟨rfl, fun _ _ => rfl⟩

theorem WaitLists.Agrees.trans {w w' w'' : WaitLists L N} (h : w.Agrees w') (h' : w'.Agrees w'') : w.Agrees w'' :=
  ⟨h'.lists.trans h.lists, fun n hn => (h'.priority n (by rwa [h.lists])).trans (h.priority n hn)⟩

def WaitLists.Sorted (w : WaitLists L N) : Prop :=
  ∀ l, (w.lists.seq l).Pairwise (fun a b => w.priority a ≤ w.priority b)

theorem waitListPeek_eq_none (w : WaitLists L N) (l : L) : waitListPeek w l = none ↔ w.lists.seq l = [] := by
  simp [waitListPeek, listFront, List.head?_eq_none_iff]

theorem waitListPeek_eq_some (w : WaitLists L N) (l : L) (n : N) :
    waitListPeek w l = some n ↔ ∃ xs, w.lists.seq l = n :: xs := by
  simp [waitListPeek, listFront, List.head?_eq_some_iff]

theorem waitListPeek_host (w : WaitLists L N) {l : L} {n : N} (h : waitListPeek w l = some n) :
    w.lists.host n = some l := by
  obtain ⟨xs, hx⟩ := (waitListPeek_eq_some w l n).mp h
  exact w.lists.host_of_head hx

theorem WaitLists.Sorted.peek_le {w : WaitLists L N} (hs : w.Sorted) {l : L} {n m : N}
    (h : waitListPeek w l = some n) (hm : w.lists.host m = some l) : w.priority n ≤ w.priority m := by
  obtain ⟨xs, hx⟩ := (waitListPeek_eq_some w l n).mp h
  have hmem := (w.lists.mem_seq l m).mpr hm
  have hp := hs l
  rw [hx] at hmem hp
  rcases List.mem_cons.mp hmem with rfl | hmem
  · exact le_refl _
  · exact (List.pairwise_cons.mp hp).1 m hmem

variable [DecidableEq L] [DecidableEq N]

def waitListValidate (w : WaitLists L N) (l : L) : Bool :=
  listValidate w.lists l && waitListOrderIsValid w.priority true 0 (w.lists.seq l)

def waitListInsert (w : WaitLists L N) (l : L) (n : N) : WaitLists L N × Status :=
  if hn : w.lists.host n = none then
    ({ w with lists := w.lists.link l n _ (insertSorted_perm w.priority n (w.lists.seq l)) hn }, .ok)
  else (w, .invalidState)

def waitListRemove (w : WaitLists L N) (l : L) (n : N) : WaitLists L N × Status :=
  if w.lists.host n ≠ some l then (w, .invalidState)
  else
    let (lists, status) := listRemove w.lists n
    ({ w with lists := lists }, status)

def WaitLists.put (w : WaitLists L N) (n : N) : Option L → WaitLists L N
  | none => w
  | some l => (waitListInsert w l n).1

def WaitLists.move (w : WaitLists L N) (n : N) (priority : Nat) : WaitLists L N :=
  WaitLists.put { lists := w.lists.unlink n, priority := Function.update w.priority n priority } n (w.lists.host n)

theorem WaitLists.agrees_move (w : WaitLists L N) {n : N} (h : w.lists.host n = none) (priority : Nat) :
    w.Agrees (w.move n priority) := by
  rw [WaitLists.move, h]
  refine ⟨w.lists.unlink_of_none h, fun m hm => ?_⟩
  have hne : m ≠ n := by
    rintro rfl
    exact hm h
  exact Function.update_of_ne hne _ _

theorem waitListInsert_eq (w : WaitLists L N) (l : L) (n : N) (hn : w.lists.host n = none) :
    waitListInsert w l n =
      ({ w with lists := w.lists.link l n _ (insertSorted_perm w.priority n (w.lists.seq l)) hn }, .ok) := by
  simp [waitListInsert, hn]

theorem waitListRemove_eq (w : WaitLists L N) (l : L) (n : N) (hn : w.lists.host n = some l) :
    waitListRemove w l n = ({ w with lists := w.lists.unlink n }, .ok) := by
  simp [waitListRemove, hn, listRemove_ok w.lists n]

namespace WaitLists.Sorted

variable {w : WaitLists L N}

theorem insert (hs : w.Sorted) (l : L) (n : N) (hn : w.lists.host n = none) :
    { w with lists := w.lists.link l n _ (insertSorted_perm w.priority n (w.lists.seq l)) hn }.Sorted := by
  intro k
  by_cases hk : k = l
  · subst hk
    simpa using insertSorted_pairwise w.priority n _ (hs k)
  · simpa [hk] using hs k

omit [DecidableEq L] in
theorem remove (hs : w.Sorted) (n : N) : { w with lists := w.lists.unlink n }.Sorted := by
  intro k
  exact (hs k).sublist List.erase_sublist

omit [DecidableEq L] in
theorem setPriority (hs : w.Sorted) (n : N) (p : Nat) (hn : w.lists.host n = none) :
    { w with priority := Function.update w.priority n p }.Sorted := by
  intro k
  apply (hs k).imp_of_mem
  intro a b ha hb hab
  have hne : ∀ m ∈ w.lists.seq k, m ≠ n := by
    rintro m hm rfl
    exact w.lists.not_mem_of_host_none hn k hm
  simpa only [Function.update_of_ne (hne a ha), Function.update_of_ne (hne b hb)] using hab

end WaitLists.Sorted

end Hairtos
