import Hairtos.Target
import Hairtos.Library.Linked
import Hairtos.Library.Memory

namespace Hairtos

open Library

variable {t : Target}

def Target.loadLink (t : Target) (m : Memory) (node : Nat) : Nat := m.load node t.wordBytes

def Target.storeLink (t : Target) (m : Memory) (node next : Nat) : Memory := m.store node t.wordBytes next

theorem Target.loadLink_congr {m m' : Memory} {node : Nat}
    (h : ∀ x, node ≤ x → x < node + t.wordBytes → m' x = m x) : t.loadLink m' node = t.loadLink m node :=
  Memory.load_congr h

theorem Target.loadLink_storeLink {m : Memory} {node next : Nat} (h : next < 2 ^ t.width) :
    t.loadLink (t.storeLink m node next) node = next := Memory.load_store m (lt_of_lt_of_le h t.word_holds)

theorem Target.loadLink_storeLink_of_apart {m : Memory} {node next x : Nat}
    (h : node + t.wordBytes ≤ x ∨ x + t.wordBytes ≤ node) :
    t.loadLink (t.storeLink m node next) x = t.loadLink m x := Memory.load_store_of_apart m next h

theorem linked_storeLink {m : Memory} {node head : Nat} {free : List Nat} (h : Linked (t.loadLink m) head free)
    (hnode : node ≠ 0) (hhead : head < 2 ^ t.width)
    (hapart : ∀ x ∈ free, node + t.wordBytes ≤ x ∨ x + t.wordBytes ≤ node) :
    Linked (t.loadLink (t.storeLink m node head)) node (node :: free) := by
  refine ⟨rfl, hnode, ?_⟩
  rw [Target.loadLink_storeLink hhead]
  exact h.congr (fun x hx => Target.loadLink_storeLink_of_apart (hapart x hx))

end Hairtos
