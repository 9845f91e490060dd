import Hairtos.Library.ListFamily
import Hairtos.Types
import Mathlib.Data.List.Dedup

/-!
The operations of `hr_list.c` at the level of the sequences its nodes form. `host` is the `list`
field of a node, and the `size` field of a list is the length of its sequence.
-/

namespace Hairtos

open Library

variable {L N : Type} [DecidableEq L] [DecidableEq N]

def listNodeIsLinked (f : ListFamily L N) (n : N) : Bool := (f.host n).isSome

def listIsEmpty (f : ListFamily L N) (l : L) : Bool := (f.seq l).isEmpty

def listSize (f : ListFamily L N) (l : L) : Nat := (f.seq l).length

def listFront (f : ListFamily L N) (l : L) : Option N := (f.seq l).head?

def listBack (f : ListFamily L N) (l : L) : Option N := (f.seq l).getLast?

def listPushFront (f : ListFamily L N) (l : L) (n : N) : ListFamily L N × Status :=
  if hn : f.host n = none then (f.link l n (n :: f.seq l) (List.Perm.refl _) hn, .ok) else (f, .invalidState)

def listPushBack (f : ListFamily L N) (l : L) (n : N) : ListFamily L N × Status :=
  if hn : f.host n = none then
    (f.link l n (f.seq l ++ [n]) (List.perm_append_singleton n (f.seq l)) hn, .ok)
  else (f, .invalidState)

theorem insert_before_perm (xs : List N) (position n : N) :
    (xs.takeWhile (· ≠ position) ++ n :: xs.dropWhile (· ≠ position)).Perm (n :: xs) := by
  refine List.perm_middle.trans ?_
  rw [List.takeWhile_append_dropWhile]

def listInsertBefore (f : ListFamily L N) (l : L) (position n : N) : ListFamily L N × Status :=
  if f.host position ≠ some l then (f, .invalidState)
  else if hn : f.host n = none then (f.link l n _ (insert_before_perm (f.seq l) position n) hn, .ok)
  else (f, .invalidState)

def listRemove (f : ListFamily L N) (n : N) : ListFamily L N × Status :=
  if f.host n = none then (f, .invalidState) else (f.unlink n, .ok)

def listPopFront (f : ListFamily L N) (l : L) : ListFamily L N × Option N :=
  match listFront f l with
  | none => (f, none)
  | some n =>
    let (g, status) := listRemove f n
    if status ≠ .ok then (g, none) else (g, some n)

def listPopBack (f : ListFamily L N) (l : L) : ListFamily L N × Option N :=
  match listBack f l with
  | none => (f, none)
  | some n =>
    let (g, status) := listRemove f n
    if status ≠ .ok then (g, none) else (g, some n)

def listValidate (f : ListFamily L N) (l : L) : Bool :=
  (f.seq l).all (fun n => f.host n = some l) && ((f.seq l).dedup.length == listSize f l)

omit [DecidableEq L] [DecidableEq N] in
@[simp] theorem listNodeIsLinked_iff (f : ListFamily L N) (n : N) :
    listNodeIsLinked f n = true ↔ f.host n ≠ none := by
  simp [listNodeIsLinked, Option.isSome_iff_ne_none]

theorem listPushBack_ok (f : ListFamily L N) (l : L) (n : N) (hn : f.host n = none) :
    listPushBack f l n =
      (f.link l n (f.seq l ++ [n]) (List.perm_append_singleton n (f.seq l)) hn, .ok) := by
  simp [listPushBack, hn]

omit [DecidableEq L] in
theorem listRemove_ok (f : ListFamily L N) (n : N) (hn : f.host n ≠ none) :
    listRemove f n = (f.unlink n, .ok) := by
  simp [listRemove, hn]

omit [DecidableEq L] in
theorem listPopFront_nil (f : ListFamily L N) (l : L) (h : f.seq l = []) :
    listPopFront f l = (f, none) := by
  simp [listPopFront, listFront, h]

omit [DecidableEq L] in
theorem listPopFront_cons (f : ListFamily L N) (l : L) {n : N} {xs : List N} (h : f.seq l = n :: xs) :
    listPopFront f l = (f.unlink n, some n) := by
  have hn : f.host n ≠ none := by
    rw [f.host_of_head h]
    exact Option.some_ne_none l
  simp [listPopFront, listFront, h, listRemove_ok f n hn]

theorem listValidate_eq_true (f : ListFamily L N) (l : L) : listValidate f l = true := by
  simp only [listValidate, listSize, List.Nodup.dedup (f.nodup l), beq_self_eq_true, Bool.and_true, List.all_eq_true,
    decide_eq_true_eq]
  intro n hn
  exact f.host_of_mem hn

end Hairtos
