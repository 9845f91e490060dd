import Hairtos.Types
import Mathlib.Logic.Function.Basic

/-!
The nodes and lists of `hr_list.c` in memory. A list contains its root node. Dereferencing `NULL` has no meaning, which
is the `none` of the functions that follow pointers they have not tested.
-/

namespace Hairtos

variable {L N : Type}

inductive NodeRef (L N : Type)
  | root (list : L)
  | node (n : N)
  deriving DecidableEq, Repr

structure ListNode (L N : Type) where
  previous : Option (NodeRef L N) := none
  next : Option (NodeRef L N) := none
  list : Option L := none
  owner : Option Nat := none

structure ListHeap (L N : Type) where
  nodes : NodeRef L N → ListNode L N
  size : L → Nat

namespace ListHeap

variable [DecidableEq L] [DecidableEq N] (h : ListHeap L N)

def setPrevious (r : NodeRef L N) (previous : Option (NodeRef L N)) : ListHeap L N :=
  { h with nodes := Function.update h.nodes r { h.nodes r with previous := previous } }

def setNext (r : NodeRef L N) (next : Option (NodeRef L N)) : ListHeap L N :=
  { h with nodes := Function.update h.nodes r { h.nodes r with next := next } }

def setList (r : NodeRef L N) (list : Option L) : ListHeap L N :=
  { h with nodes := Function.update h.nodes r { h.nodes r with list := list } }

def setOwner (r : NodeRef L N) (owner : Option Nat) : ListHeap L N :=
  { h with nodes := Function.update h.nodes r { h.nodes r with owner := owner } }

def setSize (list : L) (size : Nat) : ListHeap L N := { h with size := Function.update h.size list size }

def insertBetween (list : Option L) (previous next node : Option (NodeRef L N)) : ListHeap L N × Status :=
  match list, previous, next, node with
  | some list, some previous, some next, some node =>
    if (h.nodes node).list ≠ none then (h, .invalidState)
    else
      let h := h.setPrevious node (some previous)
      let h := h.setNext node (some next)
      let h := h.setList node (some list)
      let h := h.setNext previous (some node)
      let h := h.setPrevious next (some node)
      let h := h.setSize list (h.size list + 1)
      (h, .ok)
  | _, _, _, _ => (h, .invalidArgument)

def init (list : Option L) : ListHeap L N :=
  match list with
  | none => h
  | some list =>
    let h := h.setPrevious (.root list) (some (.root list))
    let h := h.setNext (.root list) (some (.root list))
    let h := h.setList (.root list) (some list)
    let h := h.setOwner (.root list) none
    h.setSize list 0

def nodeInit (node : Option (NodeRef L N)) (owner : Option Nat) : ListHeap L N :=
  match node with
  | none => h
  | some node =>
    let h := h.setPrevious node none
    let h := h.setNext node none
    let h := h.setList node none
    h.setOwner node owner

omit [DecidableEq L] [DecidableEq N] in
def front (list : Option L) : Option (NodeRef L N) :=
  match list with
  | none => none
  | some list => if h.size list = 0 then none else (h.nodes (.root list)).next

omit [DecidableEq L] [DecidableEq N] in
def back (list : Option L) : Option (NodeRef L N) :=
  match list with
  | none => none
  | some list => if h.size list = 0 then none else (h.nodes (.root list)).previous

def next (list : Option L) (node : Option (NodeRef L N)) : Option (NodeRef L N) :=
  match list, node with
  | some list, some node =>
    if (h.nodes node).list ≠ some list || (h.nodes node).next = some (.root list) then none else (h.nodes node).next
  | _, _ => none

def previous (list : Option L) (node : Option (NodeRef L N)) : Option (NodeRef L N) :=
  match list, node with
  | some list, some node =>
    if (h.nodes node).list ≠ some list || (h.nodes node).previous = some (.root list) then none
    else (h.nodes node).previous
  | _, _ => none

def pushFront (list : Option L) (node : Option (NodeRef L N)) : ListHeap L N × Status :=
  match list with
  | none => (h, .invalidArgument)
  | some list => h.insertBetween (some list) (some (.root list)) (h.nodes (.root list)).next node

def pushBack (list : Option L) (node : Option (NodeRef L N)) : ListHeap L N × Status :=
  match list with
  | none => (h, .invalidArgument)
  | some list => h.insertBetween (some list) (h.nodes (.root list)).previous (some (.root list)) node

def insertBefore (list : Option L) (position node : Option (NodeRef L N)) : ListHeap L N × Status :=
  match list, position with
  | some list, some position =>
    if (h.nodes position).list ≠ some list then (h, .invalidState)
    else h.insertBetween (some list) (h.nodes position).previous (some position) node
  | _, _ => (h, .invalidArgument)

def remove (node : Option (NodeRef L N)) : Option (ListHeap L N × Status) :=
  match node with
  | none => some (h, .invalidArgument)
  | some node =>
    match (h.nodes node).list with
    | none => some (h, .invalidState)
    | some list =>
      if node = .root list || h.size list = 0 then some (h, .invalidState)
      else do
        let previous ← (h.nodes node).previous
        let h := h.setNext previous (h.nodes node).next
        let next ← (h.nodes node).next
        let h := h.setPrevious next (h.nodes node).previous
        let h := h.setSize list (h.size list - 1)
        let h := h.setPrevious node none
        let h := h.setNext node none
        let h := h.setList node none
        return (h, .ok)

def popFront (list : Option L) : Option (ListHeap L N × Option (NodeRef L N)) :=
  match h.front list with
  | none => some (h, none)
  | some node => do
    let (h, status) ← h.remove (some node)
    return if status ≠ .ok then (h, none) else (h, some node)

def popBack (list : Option L) : Option (ListHeap L N × Option (NodeRef L N)) :=
  match h.back list with
  | none => some (h, none)
  | some node => do
    let (h, status) ← h.remove (some node)
    return if status ≠ .ok then (h, none) else (h, some node)

structure Walk (L N : Type) where
  previous : NodeRef L N
  node : Option (NodeRef L N)
  count : Nat

def validateStep (list : L) (w : Walk L N) : Option (Walk L N) :=
  match w.node with
  | none => none
  | some node =>
    if (h.nodes node).list ≠ some list || (h.nodes node).previous ≠ some w.previous || (h.nodes node).next =
      none then
      none
    -- The nodes counted are distinct, so that a `size_t` is as good as a natural number.
    else if w.count + 1 > h.size list then none
    else some { previous := node, node := (h.nodes node).next, count := w.count + 1 }

def validateLoop (list : L) : Nat → Walk L N → Option (Option (Walk L N))
  | iterations, w =>
    if w.node = some (.root list) then some (some w)
    else
      match iterations with
      | 0 => none
      | iterations + 1 =>
        match h.validateStep list w with
        | none => some none
        | some w => validateLoop list iterations w

def validateEnd (list : L) (last : NodeRef L N) : Option (Walk L N) → Bool
  | none => false
  | some w => w.count == h.size list && decide (last = w.previous) && decide ((h.nodes last).next = some (.root list))

def validate (iterations : Nat) (list : Option L) : Option Bool :=
  match list with
  | none => some false
  | some list =>
    match (h.nodes (.root list)).next, (h.nodes (.root list)).previous with
    | some next, some last =>
      if (h.nodes (.root list)).list ≠ some list then some false
      else
        let start : Walk L N := { previous := .root list, node := some next, count := 0 }
        (h.validateLoop list iterations start).map (h.validateEnd list last)
    | _, _ => some false

end ListHeap

end Hairtos
