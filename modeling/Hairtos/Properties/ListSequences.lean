import Hairtos.List
import Hairtos.ListHeap
import Hairtos.Library.Looped
import Hairtos.Library.Runs

namespace Hairtos

open Library

variable {L N : Type}

inductive ListCall (L N : Type)
  | pushFront (list : Option L) (node : Option (NodeRef L N))
  | pushBack (list : Option L) (node : Option (NodeRef L N))
  | insertBefore (list : Option L) (position node : Option (NodeRef L N))
  | remove (node : Option (NodeRef L N))
  | popFront (list : Option L)
  | popBack (list : Option L)

inductive ListAnswer (L N : Type)
  | status (status : Status)
  | node (node : Option (NodeRef L N))

def ListAnswer.failed : ListAnswer L N → Bool
  | .status s => s ≠ .ok
  | .node n => n.isNone

structure ListHeap.Holds (h : ListHeap L N) (f : ListFamily L N) : Prop where
  next : ∀ l, Looped (fun r => (h.nodes r).next) (.root l) ((f.seq l).map .node)
  previous : ∀ l, Looped (fun r => (h.nodes r).previous) (.root l) ((f.seq l).map .node).reverse
  list : ∀ n, (h.nodes (.node n)).list = f.host n
  root : ∀ l, (h.nodes (.root l)).list = some l
  size : ∀ l, h.size l = (f.seq l).length

def ListHeap.Follows (h : ListHeap L N) (result : Option (ListHeap L N × ListAnswer L N))
    (expected : ListFamily L N × ListAnswer L N) : Prop :=
  ∃ h', result = some (h', expected.2) ∧ h'.Holds expected.1 ∧ (expected.2.failed = true → h' = h)

def ListHeap.Matches (h : ListHeap L N) (result : ListHeap L N × Status) (expected : ListFamily L N × Status) :
    Prop :=
  result.2 = expected.2 ∧ result.1.Holds expected.1 ∧ (expected.2 ≠ .ok → result.1 = h)

variable [DecidableEq L] [DecidableEq N]

def ListHeap.call (h : ListHeap L N) : ListCall L N → Option (ListHeap L N × ListAnswer L N)
  | .pushFront list node => some ((h.pushFront list node).1, .status (h.pushFront list node).2)
  | .pushBack list node => some ((h.pushBack list node).1, .status (h.pushBack list node).2)
  | .insertBefore list position node =>
    some ((h.insertBefore list position node).1, .status (h.insertBefore list position node).2)
  | .remove node => (h.remove node).map (fun r => (r.1, .status r.2))
  | .popFront list => (h.popFront list).map (fun r => (r.1, .node r.2))
  | .popBack list => (h.popBack list).map (fun r => (r.1, .node r.2))

def ListHeap.run (h : ListHeap L N) : List (ListCall L N) → Option (ListHeap L N × List (ListAnswer L N))
  | [] => some (h, [])
  | c :: calls => do
    let (h, answer) ← h.call c
    let (h, rest) ← ListHeap.run h calls
    return (h, answer :: rest)

def ListHeap.fresh (owner : N → Option Nat) : ListHeap L N where
  nodes
    | .root l => { previous := some (.root l), next := some (.root l), list := some l }
    | .node n => { owner := owner n }
  size _ := 0

def onNode (f : ListFamily L N) (node : Option (NodeRef L N)) (op : N → ListFamily L N × Status) :
    ListFamily L N × Status :=
  match node with
  | none => (f, .invalidArgument)
  | some (.root _) => (f, .invalidState)
  | some (.node n) => op n

def sequenceCall (f : ListFamily L N) : ListCall L N → ListFamily L N × ListAnswer L N
  | .pushFront none _ => (f, .status .invalidArgument)
  | .pushFront (some l) node =>
    let r := onNode f node (listPushFront f l)
    (r.1, .status r.2)
  | .pushBack none _ => (f, .status .invalidArgument)
  | .pushBack (some l) node =>
    let r := onNode f node (listPushBack f l)
    (r.1, .status r.2)
  | .insertBefore none _ _ => (f, .status .invalidArgument)
  | .insertBefore (some _) none _ => (f, .status .invalidArgument)
  | .insertBefore (some l) (some (.root l')) node =>
    let r := if l' = l then onNode f node (listPushBack f l) else (f, .invalidState)
    (r.1, .status r.2)
  | .insertBefore (some l) (some (.node position)) node =>
    let r := if f.host position = some l then onNode f node (listInsertBefore f l position) else (f, .invalidState)
    (r.1, .status r.2)
  | .remove node =>
    let r := onNode f node (listRemove f)
    (r.1, .status r.2)
  | .popFront none => (f, .node none)
  | .popFront (some l) =>
    let r := listPopFront f l
    (r.1, .node (r.2.map .node))
  | .popBack none => (f, .node none)
  | .popBack (some l) =>
    let r := listPopBack f l
    (r.1, .node (r.2.map .node))

namespace ListHeap

variable {h : ListHeap L N} {f : ListFamily L N} {l : L} {n : N} {xs ys : List N} {p q : NodeRef L N}

omit [DecidableEq L] [DecidableEq N] in
theorem loop_nodup (f : ListFamily L N) (l : L) : (NodeRef.root l :: (f.seq l).map NodeRef.node).Nodup := by
  refine List.nodup_cons.mpr ⟨by simp, (f.nodup l).map ?_⟩
  intro a b hab
  exact NodeRef.node.inj hab

omit [DecidableEq L] [DecidableEq N] in
theorem loop_disjoint (f : ListFamily L N) {l l' : L} {r : NodeRef L N} (hr : r ∈ NodeRef.root l ::
    (f.seq l).map .node)
    (hr' : r ∈ NodeRef.root l' :: (f.seq l').map .node) : l = l' := by
  cases r with
  | root k =>
    simp only [List.mem_cons, NodeRef.root.injEq, List.mem_map, reduceCtorEq, and_false, exists_false,
      or_false] at hr hr'
    exact hr.symm.trans hr'
  | node m =>
    simp only [List.mem_cons, reduceCtorEq, List.mem_map, NodeRef.node.injEq, exists_eq_right, false_or] at hr hr'
    exact Option.some.inj ((f.host_of_mem hr).symm.trans (f.host_of_mem hr'))

section Insert

variable (hn : (h.nodes (.node n)).list = none)

include hn

theorem insertBetween_next (hp : p ≠ .node n) (r : NodeRef L N) :
    ((h.insertBetween (some l) (some p) (some q) (some (.node n))).1.nodes r).next =
      if r = p then some (.node n) else if r = .node n then some q else (h.nodes r).next := by
  simp only [insertBetween, hn, setPrevious, setNext, setList, setSize, ne_eq, not_true_eq_false, ↓reduceIte,
    Function.update_apply]
  split_ifs <;> simp_all

theorem insertBetween_previous (hq : q ≠ .node n) (r : NodeRef L N) :
    ((h.insertBetween (some l) (some p) (some q) (some (.node n))).1.nodes r).previous =
      if r = q then some (.node n) else if r = .node n then some p else (h.nodes r).previous := by
  simp only [insertBetween, hn, setPrevious, setNext, setList, setSize, ne_eq, not_true_eq_false, ↓reduceIte,
    Function.update_apply]
  split_ifs <;> simp_all

theorem insertBetween_list (r : NodeRef L N) :
    ((h.insertBetween (some l) (some p) (some q) (some (.node n))).1.nodes r).list =
      if r = .node n then some l else (h.nodes r).list := by
  simp only [insertBetween, hn, setPrevious, setNext, setList, setSize, ne_eq, not_true_eq_false, ↓reduceIte,
    Function.update_apply]
  split_ifs <;> simp_all

theorem insertBetween_size (k : L) :
    (h.insertBetween (some l) (some p) (some q) (some (.node n))).1.size k =
      if k = l then h.size l + 1 else h.size k := by
  simp only [insertBetween, hn, setPrevious, setNext, setList, setSize, ne_eq, not_true_eq_false, ↓reduceIte,
    Function.update_apply]

theorem insertBetween_status :
    (h.insertBetween (some l) (some p) (some q) (some (.node n))).2 = .ok := by
  simp [insertBetween, hn]

end Insert

omit [DecidableEq L] [DecidableEq N] in
theorem not_mem_loop (hn : f.host n = none) (k : L) :
    NodeRef.node n ∉ NodeRef.root k :: (f.seq k).map NodeRef.node := by
  simpa using f.not_mem_of_host_none hn k

omit [DecidableEq L] [DecidableEq N] in
theorem before_mem (hseq : f.seq l = xs ++ ys) (hp : (NodeRef.root l :: xs.map NodeRef.node).getLast? = some p) :
    p ∈ NodeRef.root l :: (f.seq l).map NodeRef.node := by
  have hmem := List.mem_of_getLast? hp
  rw [hseq, List.map_append]
  exact List.mem_append_left _ hmem

omit [DecidableEq L] [DecidableEq N] in
theorem after_mem (hseq : f.seq l = xs ++ ys) (hq : (ys.map NodeRef.node ++ [NodeRef.root l]).head? = some q) :
    q ∈ NodeRef.root l :: (f.seq l).map NodeRef.node := by
  have hmem := List.mem_of_head? hq
  rw [hseq, List.map_append]
  simp only [List.mem_append, List.mem_cons, List.not_mem_nil, or_false] at hmem ⊢
  tauto

theorem Holds.insertBetween (hh : h.Holds f) (hseq : f.seq l = xs ++ ys)
    (hp : (NodeRef.root l :: xs.map NodeRef.node).getLast? = some p)
    (hq : (ys.map NodeRef.node ++ [NodeRef.root l]).head? = some q) (hn : f.host n = none)
    (hx : (xs ++ n :: ys).Perm (n :: f.seq l)) :
    (h.insertBetween (some l) (some p) (some q) (some (.node n))).1.Holds (f.link l n (xs ++ n :: ys) hx hn) := by
  have hlist : (h.nodes (.node n)).list = none := (hh.list n).trans hn
  have hpl := before_mem hseq hp
  have hql := after_mem hseq hq
  have hpn : p ≠ .node n := fun he => not_mem_loop hn l (he ▸ hpl)
  have hqn : q ≠ .node n := fun he => not_mem_loop hn l (he ▸ hql)
  have hnodup := loop_nodup f l
  have hfresh := not_mem_loop hn l
  rw [hseq, List.map_append] at hnodup hfresh
  refine ⟨fun k => ?_, fun k => ?_, fun m => ?_, fun k => ?_, fun k => ?_⟩
  · by_cases hk : k = l
    · subst hk
      have hnext := hh.next k
      rw [hseq, List.map_append] at hnext
      rw [ListFamily.link_seq, Function.update_self, List.map_append, List.map_cons]
      refine hnext.insert hnodup hfresh hp hq ?_ ?_ ?_
      · rw [insertBetween_next hlist hpn, if_pos rfl]
      · rw [insertBetween_next hlist hpn, if_neg hpn.symm, if_pos rfl]
      · intro z hzp hzn
        rw [insertBetween_next hlist hpn, if_neg hzp, if_neg hzn]
    · rw [ListFamily.link_seq, Function.update_of_ne hk]
      refine (hh.next k).congr (fun z hz => ?_)
      have hzp : z ≠ p := fun he => hk (loop_disjoint f hz (he ▸ hpl))
      have hzn : z ≠ .node n := fun he => not_mem_loop hn k (he ▸ hz)
      rw [insertBetween_next hlist hpn, if_neg hzp, if_neg hzn]
  · by_cases hk : k = l
    · subst hk
      have hprevious := hh.previous k
      rw [hseq, List.map_append] at hprevious
      rw [ListFamily.link_seq, Function.update_self, List.map_append, List.map_cons]
      refine hprevious.insert_reverse hnodup hfresh hp hq ?_ ?_ ?_
      · rw [insertBetween_previous hlist hqn, if_pos rfl]
      · rw [insertBetween_previous hlist hqn, if_neg hqn.symm, if_pos rfl]
      · intro z hzq hzn
        rw [insertBetween_previous hlist hqn, if_neg hzq, if_neg hzn]
    · rw [ListFamily.link_seq, Function.update_of_ne hk]
      refine (hh.previous k).congr (fun z hz => ?_)
      have hz : z ∈ NodeRef.root k :: (f.seq k).map .node := by simpa using hz
      have hzq : z ≠ q := fun he => hk (loop_disjoint f hz (he ▸ hql))
      have hzn : z ≠ .node n := fun he => not_mem_loop hn k (he ▸ hz)
      rw [insertBetween_previous hlist hqn, if_neg hzq, if_neg hzn]
  · rw [insertBetween_list hlist, ListFamily.link_host, Function.update_apply, hh.list m]
    simp
  · rw [insertBetween_list hlist, if_neg (by simp), hh.root k]
  · rw [insertBetween_size hlist, ListFamily.link_seq, Function.update_apply, hh.size, hh.size]
    split
    · rw [hx.length_eq, List.length_cons]
    · rfl

def detach (h : ListHeap L N) (l : L) (n : N) (p q : NodeRef L N) : ListHeap L N :=
  ((((h.setNext p (some q)).setPrevious q (some p)).setSize l (h.size l - 1)).setPrevious (.node n) none |>.setNext
    (.node n) none).setList (.node n) none

theorem remove_eq (hlist : (h.nodes (.node n)).list = some l) (hsize : h.size l ≠ 0)
    (hprevious : (h.nodes (.node n)).previous = some p) (hnext : (h.nodes (.node n)).next = some q)
    (hpn : p ≠ .node n)
    (hqn : q ≠ .node n) : h.remove (some (.node n)) = some (h.detach l n p q, .ok) := by
  simp [remove, hlist, hsize, hprevious, hnext, detach, setNext, setPrevious, hpn.symm, hqn.symm, setSize]

theorem detach_next (hpn : p ≠ .node n) (r : NodeRef L N) :
    ((h.detach l n p q).nodes r).next =
      if r = .node n then none else if r = p then some q else (h.nodes r).next := by
  simp only [detach, setNext, setPrevious, setList, setSize, Function.update_apply]
  split_ifs <;> simp_all

theorem detach_previous (hqn : q ≠ .node n) (r : NodeRef L N) :
    ((h.detach l n p q).nodes r).previous =
      if r = .node n then none else if r = q then some p else (h.nodes r).previous := by
  simp only [detach, setNext, setPrevious, setList, setSize, Function.update_apply]
  split_ifs <;> simp_all

theorem detach_list (r : NodeRef L N) :
    ((h.detach l n p q).nodes r).list = if r = .node n then none else (h.nodes r).list := by
  simp only [detach, setNext, setPrevious, setList, setSize, Function.update_apply]
  split_ifs <;> simp_all

theorem detach_size (k : L) : (h.detach l n p q).size k = if k = l then h.size l - 1 else h.size k := by
  simp only [detach, setNext, setPrevious, setList, setSize, Function.update_apply]

theorem Holds.detach (hh : h.Holds f) (hseq : f.seq l = xs ++ n :: ys)
    (hp : (NodeRef.root l :: xs.map NodeRef.node).getLast? = some p)
    (hq : (ys.map NodeRef.node ++ [NodeRef.root l]).head? = some q) (hpn : p ≠ .node n) (hqn : q ≠ .node n) :
    (h.detach l n p q).Holds (f.unlink n) := by
  have hmem : n ∈ f.seq l := by simp [hseq]
  have hhost := f.host_of_mem hmem
  have hnl : NodeRef.node n ∈ NodeRef.root l :: (f.seq l).map NodeRef.node := by simpa using hmem
  have hpl := before_mem hseq hp
  have hql : q ∈ NodeRef.root l :: (f.seq l).map NodeRef.node :=
    after_mem (hseq.trans (List.append_cons xs n ys)) hq
  have hnodup := loop_nodup f l
  rw [hseq, List.map_append, List.map_cons] at hnodup
  have herase : (f.unlink n).seq l = xs ++ ys := by
    have hnot : n ∉ xs := by
      have := f.nodup l
      rw [hseq, List.nodup_middle, List.nodup_cons] at this
      exact fun hx => this.1 (List.mem_append_left _ hx)
    rw [ListFamily.unlink_seq, hseq, List.erase_append_right _ hnot, List.erase_cons_head]
  have hothers : ∀ k, k ≠ l → (f.unlink n).seq k = f.seq k := fun k hk =>
    f.unlink_seq_of_ne (by rw [hhost]; exact fun he => hk (Option.some.inj he).symm)
  have hapart : ∀ {k r}, k ≠ l → r ∈ NodeRef.root k :: (f.seq k).map NodeRef.node →
      r ≠ .node n ∧ r ≠ p ∧ r ≠ q := by
    intro k r hk hr
    exact ⟨fun he => hk (loop_disjoint f hr (he ▸ hnl)), fun he => hk (loop_disjoint f hr (he ▸ hpl)),
      fun he => hk (loop_disjoint f hr (he ▸ hql))⟩
  refine ⟨fun k => ?_, fun k => ?_, fun m => ?_, fun k => ?_, fun k => ?_⟩
  · by_cases hk : k = l
    · subst hk
      have hnext := hh.next k
      rw [hseq, List.map_append, List.map_cons] at hnext
      rw [herase, List.map_append]
      refine hnext.remove hnodup hp hq ?_ (fun z hzp hzn => ?_)
      · rw [detach_next hpn, if_neg hpn, if_pos rfl]
      · rw [detach_next hpn, if_neg hzn, if_neg hzp]
    · rw [hothers k hk]
      refine (hh.next k).congr (fun z hz => ?_)
      obtain ⟨hzn, hzp, -⟩ := hapart hk hz
      rw [detach_next hpn, if_neg hzn, if_neg hzp]
  · by_cases hk : k = l
    · subst hk
      have hprevious := hh.previous k
      rw [hseq, List.map_append, List.map_cons] at hprevious
      rw [herase, List.map_append]
      refine hprevious.remove_reverse hnodup hp hq ?_ (fun z hzq hzn => ?_)
      · rw [detach_previous hqn, if_neg hqn, if_pos rfl]
      · rw [detach_previous hqn, if_neg hzn, if_neg hzq]
    · rw [hothers k hk]
      refine (hh.previous k).congr (fun z hz => ?_)
      obtain ⟨hzn, -, hzq⟩ := hapart hk (by simpa using hz)
      rw [detach_previous hqn, if_neg hzn, if_neg hzq]
  · rw [detach_list, ListFamily.unlink_host, Function.update_apply, hh.list m]
    simp
  · rw [detach_list, if_neg (by simp), hh.root k]
  · rw [detach_size, hh.size, hh.size]
    split
    · next hk =>
      rw [hk, herase, hseq]
      simp only [List.length_append, List.length_cons]
      omega
    · next hk => rw [hothers k hk]

theorem Holds.remove (hh : h.Holds f) (hn : f.host n = some l) :
    ∃ h', h.remove (some (.node n)) = some (h', .ok) ∧ h'.Holds (f.unlink n) := by
  have hmem : n ∈ f.seq l := (f.mem_seq l n).mpr hn
  obtain ⟨xs, ys, hseq⟩ := List.append_of_mem hmem
  obtain ⟨p, hp⟩ : ∃ p, (NodeRef.root l :: xs.map NodeRef.node).getLast? = some p :=
    ⟨_, List.getLast?_cons ..⟩
  obtain ⟨q, hq⟩ : ∃ q, (ys.map NodeRef.node ++ [NodeRef.root l]).head? = some q := by
    cases ys <;> exact ⟨_, rfl⟩
  have hnodup := loop_nodup f l
  have hnext := hh.next l
  have hprevious := hh.previous l
  rw [hseq, List.map_append, List.map_cons] at hnodup hnext hprevious
  rw [← List.cons_append, List.nodup_middle, List.nodup_cons] at hnodup
  have hnot := hnodup.1
  have hpn : p ≠ .node n := by
    rintro rfl
    exact hnot (List.mem_append_left _ (List.mem_of_getLast? hp))
  have hqn : q ≠ .node n := by
    rintro rfl
    have hmem := List.mem_of_head? hq
    simp only [List.mem_append, List.mem_cons, reduceCtorEq, List.not_mem_nil, or_false] at hmem hnot
    exact hnot (Or.inr hmem)
  have hsize : h.size l ≠ 0 := by simp [hh.size, hseq]
  exact ⟨_, remove_eq ((hh.list n).trans hn) hsize (hprevious.successor_reverse hp) (hnext.successor hq) hpn hqn,
    hh.detach hseq hp hq hpn hqn⟩

theorem Holds.insertBetween_onNode (hh : h.Holds f) (hseq : f.seq l = xs ++ ys)
    (hp : (NodeRef.root l :: xs.map NodeRef.node).getLast? = some p)
    (hq : (ys.map NodeRef.node ++ [NodeRef.root l]).head? = some q) (node : Option (NodeRef L N))
    {op : N → ListFamily L N × Status} (hx : ∀ n, (xs ++ n :: ys).Perm (n :: f.seq l))
    (hop : ∀ n (hn : f.host n = none), op n = (f.link l n (xs ++ n :: ys) (hx n) hn, .ok))
    (hop' : ∀ n, f.host n ≠ none → op n = (f, .invalidState)) :
    h.Matches (h.insertBetween (some l) (some p) (some q) node) (onNode f node op) := by
  cases node with
  | none => exact ⟨rfl, hh, fun _ => rfl⟩
  | some r =>
    cases r with
    | root k =>
      have hroot : h.insertBetween (some l) (some p) (some q) (some (.root k)) = (h, .invalidState) := by
        simp [ListHeap.insertBetween, hh.root k]
      rw [hroot]
      exact ⟨rfl, hh, fun _ => rfl⟩
    | node n =>
      by_cases hn : f.host n = none
      · have hlist := (hh.list n).trans hn
        simp only [Matches, onNode, hop n hn]
        exact ⟨insertBetween_status hlist, hh.insertBetween hseq hp hq hn (hx n), fun hne => absurd rfl hne⟩
      · have hlinked : h.insertBetween (some l) (some p) (some q) (some (.node n)) = (h, .invalidState) := by
          simp [ListHeap.insertBetween, hh.list n, hn]
        rw [onNode, hop' n hn, hlinked]
        exact ⟨rfl, hh, fun _ => rfl⟩

theorem Holds.pushFront (hh : h.Holds f) (l : L) (node : Option (NodeRef L N)) :
    h.Matches (h.pushFront (some l) node) (onNode f node (listPushFront f l)) := by
  obtain ⟨q, hq⟩ : ∃ q, ((f.seq l).map NodeRef.node ++ [NodeRef.root l]).head? = some q := by
    cases f.seq l <;> exact ⟨_, rfl⟩
  have hnext := (hh.next l).first.trans hq
  simp only [ListHeap.pushFront, hnext]
  have hsplit : f.seq l = [] ++ f.seq l := rfl
  refine hh.insertBetween_onNode hsplit rfl hq node (fun n => List.Perm.refl _) (fun n hn => ?_) (fun n hn => ?_)
  · simp [listPushFront, hn]
  · simp [listPushFront, hn]

theorem Holds.pushBack (hh : h.Holds f) (l : L) (node : Option (NodeRef L N)) :
    h.Matches (h.pushBack (some l) node) (onNode f node (listPushBack f l)) := by
  obtain ⟨p, hp⟩ : ∃ p, (NodeRef.root l :: (f.seq l).map NodeRef.node).getLast? = some p :=
    ⟨_, List.getLast?_cons ..⟩
  have hprevious := (hh.previous l).first_reverse.trans hp
  simp only [ListHeap.pushBack, hprevious]
  have hsplit : f.seq l = f.seq l ++ [] := (List.append_nil _).symm
  refine hh.insertBetween_onNode hsplit hp rfl node
    (fun n => List.perm_append_singleton n _) (fun n hn => ?_) (fun n hn => ?_)
  · simp [listPushBack, hn]
  · simp [listPushBack, hn]

omit [DecidableEq L] in
theorem dropWhile_ne_eq_cons {position : N} {xs : List N} (hmem : position ∈ xs) :
    ∃ ys, xs.dropWhile (· ≠ position) = position :: ys := by
  induction xs with
  | nil => simp at hmem
  | cons x xs ih =>
    by_cases hx : x = position
    · subst hx
      exact ⟨xs, by simp⟩
    · obtain ⟨ys, hys⟩ := ih (List.mem_of_ne_of_mem (Ne.symm hx) hmem)
      refine ⟨ys, ?_⟩
      rw [List.dropWhile_cons_of_pos (by simpa using hx)]
      exact hys

theorem Holds.insertBefore (hh : h.Holds f) {position : N} (hposition : f.host position = some l)
    (node : Option (NodeRef L N)) :
    h.Matches (h.insertBefore (some l) (some (.node position)) node)
      (onNode f node (listInsertBefore f l position)) := by
  obtain ⟨ys, hys⟩ := dropWhile_ne_eq_cons ((f.mem_seq l position).mpr hposition)
  have hseq : f.seq l = (f.seq l).takeWhile (· ≠ position) ++ (f.seq l).dropWhile (· ≠ position) :=
    List.takeWhile_append_dropWhile.symm
  obtain ⟨p, hp⟩ : ∃ p, (NodeRef.root l :: ((f.seq l).takeWhile (· ≠ position)).map NodeRef.node).getLast? =
    some p :=
    ⟨_, List.getLast?_cons ..⟩
  have hprevious := hh.previous l
  rw [hseq, hys, List.map_append, List.map_cons] at hprevious
  have hlist : (h.nodes (.node position)).list = some l := (hh.list position).trans hposition
  have hq : (((f.seq l).dropWhile (· ≠ position)).map NodeRef.node ++ [NodeRef.root l]).head? =
      some (.node position) := by
    rw [hys]
    rfl
  simp only [ListHeap.insertBefore, hlist, hprevious.successor_reverse hp, ne_eq, not_true_eq_false, ↓reduceIte]
  refine hh.insertBetween_onNode hseq hp hq node (insert_before_perm _ position) (fun n hn => ?_) (fun n hn => ?_)
  · simp [listInsertBefore, hposition, hn]
  · simp [listInsertBefore, hposition, hn]

theorem Holds.remove_onNode (hh : h.Holds f) (node : Option (NodeRef L N)) :
    ∃ r, h.remove node = some r ∧ h.Matches r (onNode f node (listRemove f)) := by
  cases node with
  | none => exact ⟨_, rfl, rfl, hh, fun _ => rfl⟩
  | some r =>
    cases r with
    | root k => exact ⟨(h, .invalidState), by simp [ListHeap.remove, hh.root k], rfl, hh, fun _ => rfl⟩
    | node n =>
      cases hn : f.host n with
      | none =>
        rw [onNode, show listRemove f n = (f, .invalidState) from if_pos hn]
        exact ⟨(h, .invalidState), by simp [ListHeap.remove, hh.list n, hn], rfl, hh, fun _ => rfl⟩
      | some l =>
        obtain ⟨h', hremove, hholds⟩ := hh.remove hn
        rw [onNode, listRemove_ok f n (by simp [hn])]
        exact ⟨_, hremove, rfl, hholds, fun hne => absurd rfl hne⟩

theorem Holds.popFront (hh : h.Holds f) (l : L) :
    ∃ h', h.popFront (some l) = some (h', (listPopFront f l).2.map .node) ∧ h'.Holds (listPopFront f l).1 ∧
      ((listPopFront f l).2 = none → h' = h) := by
  cases hseq : f.seq l with
  | nil =>
    rw [listPopFront_nil f l hseq]
    refine ⟨h, ?_, hh, fun _ => rfl⟩
    simp [ListHeap.popFront, ListHeap.front, hh.size, hseq]
  | cons n ys =>
    rw [listPopFront_cons f l hseq]
    obtain ⟨h', hremove, hholds⟩ := hh.remove (f.host_of_head hseq)
    have hfront : h.front (some l) = some (.node n) := by
      have hfirst := (hh.next l).first
      rw [hseq] at hfirst
      simp [ListHeap.front, hh.size, hseq, hfirst]
    refine ⟨h', ?_, hholds, fun hne => by cases hne⟩
    simp [ListHeap.popFront, hfront, hremove]

theorem Holds.popBack (hh : h.Holds f) (l : L) :
    ∃ h', h.popBack (some l) = some (h', (listPopBack f l).2.map .node) ∧ h'.Holds (listPopBack f l).1 ∧
      ((listPopBack f l).2 = none → h' = h) := by
  cases hlast : (f.seq l).getLast? with
  | none =>
    have hseq := List.getLast?_eq_none_iff.mp hlast
    refine ⟨h, ?_, ?_, fun _ => rfl⟩
    · simp [ListHeap.popBack, ListHeap.back, hh.size, hseq, listPopBack, listBack]
    · simpa [listPopBack, listBack, hseq] using hh
  | some n =>
    have hn : f.host n = some l := f.host_of_mem (List.mem_of_getLast? hlast)
    have hpop : listPopBack f l = (f.unlink n, some n) := by
      simp [listPopBack, listBack, hlast, listRemove_ok f n (by simp [hn])]
    have hback : h.back (some l) = some (.node n) := by
      have hne : f.seq l ≠ [] := by
        rintro hnil
        simp [hnil] at hlast
      have hfirst := (hh.previous l).first_reverse
      rw [List.getLast?_cons, List.getLast?_map, hlast] at hfirst
      simp [ListHeap.back, hh.size, hne, hfirst]
    obtain ⟨h', hremove, hholds⟩ := hh.remove hn
    rw [hpop]
    refine ⟨h', ?_, hholds, fun hne => by cases hne⟩
    simp [ListHeap.popBack, hback, hremove]

theorem Holds.neighbours (hh : h.Holds f) (hseq : f.seq l = xs ++ n :: ys) :
    h.next (some l) (some (.node n)) = ys.head?.map .node ∧ h.previous (some l) (some (.node n)) = xs.getLast?.map
      .node := by
  have hlist : (h.nodes (.node n)).list = some l := (hh.list n).trans (f.host_of_mem (by simp [hseq]))
  have hnext := hh.next l
  have hprevious := hh.previous l
  rw [hseq, List.map_append, List.map_cons] at hnext hprevious
  constructor
  · cases ys with
    | nil => simp [ListHeap.next, hlist, hnext.successor rfl]
    | cons y ys => simp [ListHeap.next, hlist, hnext.successor (q := .node y) rfl]
  · cases hlast : xs.getLast? with
    | none =>
      obtain rfl := List.getLast?_eq_none_iff.mp hlast
      simp [ListHeap.previous, hlist, hprevious.successor_reverse (p := .root l) rfl]
    | some y =>
      have hp : (NodeRef.root l :: xs.map NodeRef.node).getLast? = some (.node y) := by
        rw [List.getLast?_cons, List.getLast?_map, hlast]
        rfl
      simp [ListHeap.previous, hlist, hprevious.successor_reverse hp]

omit [DecidableEq L] [DecidableEq N] in
theorem Matches.follows {r : ListHeap L N × Status} {expected : ListFamily L N × Status} (hr : h.Matches r expected) :
    h.Follows (some (r.1, .status r.2)) (expected.1, .status expected.2) := by
  obtain ⟨hs, hg, hsame⟩ := hr
  rw [hs]
  exact ⟨r.1, rfl, hg, fun hf => hsame (by simpa [ListAnswer.failed] using hf)⟩

theorem Holds.call (hh : h.Holds f) (c : ListCall L N) : h.Follows (h.call c) (sequenceCall f c) := by
  cases c with
  | pushFront list node =>
    cases list with
    | none => exact ⟨h, rfl, hh, fun _ => rfl⟩
    | some l => exact (hh.pushFront l node).follows
  | pushBack list node =>
    cases list with
    | none => exact ⟨h, rfl, hh, fun _ => rfl⟩
    | some l => exact (hh.pushBack l node).follows
  | insertBefore list position node =>
    match list, position with
    | none, _ => exact ⟨h, rfl, hh, fun _ => rfl⟩
    | some l, none => exact ⟨h, rfl, hh, fun _ => rfl⟩
    | some l, some (.root k) =>
      by_cases hk : k = l
      · subst hk
        have hback : h.insertBefore (some k) (some (.root k)) node = h.pushBack (some k) node := by
          simp [ListHeap.insertBefore, hh.root k, ListHeap.pushBack]
        simp only [ListHeap.call, sequenceCall, ↓reduceIte, hback]
        exact (hh.pushBack k node).follows
      · have hother : h.insertBefore (some l) (some (.root k)) node = (h, .invalidState) := by
          simp [ListHeap.insertBefore, hh.root k, hk]
        simp only [ListHeap.call, sequenceCall, hk, ↓reduceIte, hother]
        exact ⟨h, rfl, hh, fun _ => rfl⟩
    | some l, some (.node position) =>
      by_cases hposition : f.host position = some l
      · simp only [ListHeap.call, sequenceCall, hposition, ↓reduceIte]
        exact (hh.insertBefore hposition node).follows
      · have hother : h.insertBefore (some l) (some (.node position)) node = (h, .invalidState) := by
          simp [ListHeap.insertBefore, hh.list position, hposition]
        simp only [ListHeap.call, sequenceCall, hposition, ↓reduceIte, hother]
        exact ⟨h, rfl, hh, fun _ => rfl⟩
  | remove node =>
    obtain ⟨r, hremove, hr⟩ := hh.remove_onNode node
    simp only [ListHeap.call, hremove, Option.map_some]
    exact hr.follows
  | popFront list =>
    cases list with
    | none => exact ⟨h, rfl, hh, fun _ => rfl⟩
    | some l =>
      obtain ⟨h', hpop, hg, hsame⟩ := hh.popFront l
      refine ⟨h', by simp only [ListHeap.call, hpop, Option.map_some, sequenceCall], hg, fun hf => hsame ?_⟩
      simpa [ListAnswer.failed, sequenceCall] using hf
  | popBack list =>
    cases list with
    | none => exact ⟨h, rfl, hh, fun _ => rfl⟩
    | some l =>
      obtain ⟨h', hpop, hg, hsame⟩ := hh.popBack l
      refine ⟨h', by simp only [ListHeap.call, hpop, Option.map_some, sequenceCall], hg, fun hf => hsame ?_⟩
      simpa [ListAnswer.failed, sequenceCall] using hf

omit [DecidableEq L] [DecidableEq N] in
theorem fresh_holds (owner : N → Option Nat) : (ListHeap.fresh owner : ListHeap L N).Holds .empty where
  next _ := Looped.empty_iff.mpr rfl
  previous _ := Looped.empty_iff.mpr rfl
  list _ := rfl
  root _ := rfl
  size _ := rfl

theorem fresh_initialized (owner : N → Option Nat) (l : L) (n : N) :
    (ListHeap.fresh owner : ListHeap L N).init (some l) = .fresh owner ∧
      (ListHeap.fresh owner : ListHeap L N).nodeInit (some (.node n)) (owner n) = .fresh owner := by
  constructor
  · simp only [init, fresh, setPrevious, setNext, setList, setOwner, setSize, Function.update_idem,
      Function.update_self]
    simp
  · simp only [nodeInit, fresh, setPrevious, setNext, setList, setOwner, Function.update_idem, Function.update_self]
    simp

theorem Holds.run (hh : h.Holds f) (calls : List (ListCall L N)) :
    ∃ h', h.run calls = some (h', (answers sequenceCall f calls).2) ∧
      h'.Holds (answers sequenceCall f calls).1 := by
  induction calls generalizing h f with
  | nil => exact ⟨h, rfl, hh⟩
  | cons c calls ih =>
    obtain ⟨h₁, hcall, hh₁, -⟩ := hh.call c
    obtain ⟨h₂, hrun, hh₂⟩ := ih hh₁
    refine ⟨h₂, ?_, hh₂⟩
    simp [ListHeap.run, hcall, hrun, answers]

end ListHeap

theorem list_implements_sequences (owner : N → Option Nat) (calls : List (ListCall L N)) :
    ∃ h : ListHeap L N, ListHeap.run (.fresh owner) calls = some (h, (answers sequenceCall .empty calls).2) ∧
      h.Holds (answers sequenceCall .empty calls).1 ∧
      ∀ c, h.Follows (h.call c) (sequenceCall (answers sequenceCall .empty calls).1 c) := by
  obtain ⟨h, hrun, hholds⟩ := (ListHeap.fresh_holds owner).run calls
  exact ⟨h, hrun, hholds, hholds.call⟩

end Hairtos
