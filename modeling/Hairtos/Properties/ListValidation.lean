import Hairtos.Properties.ListSequences

namespace Hairtos

open Library

variable {L N : Type}

namespace ListHeap

structure WellFormed (h : ListHeap L N) (l : L) (xs : List (NodeRef L N)) : Prop where
  root : (h.nodes (.root l)).list = some l
  size : xs.length = h.size l
  distinct : (NodeRef.root l :: xs).Nodup
  next : Looped (fun r => (h.nodes r).next) (.root l) xs
  previous : Looped (fun r => (h.nodes r).previous) (.root l) xs.reverse
  hosted : ∀ r ∈ xs, (h.nodes r).list = some l

structure Walked (h : ListHeap L N) (l : L) (xs : List (NodeRef L N)) (w : Walk L N) : Prop where
  last : (NodeRef.root l :: xs).getLast? = some w.previous
  node : w.node = (h.nodes w.previous).next
  count : w.count = xs.length
  bound : xs.length ≤ h.size l
  next : List.IsChain (fun x y => (h.nodes x).next = some y) (.root l :: xs)
  previous : List.IsChain (fun x y => (h.nodes y).previous = some x) (.root l :: xs)
  hosted : ∀ r ∈ xs, (h.nodes r).list = some l
  away : NodeRef.root l ∉ xs

variable {h : ListHeap L N} {l : L} {xs ys : List (NodeRef L N)} {w w' : Walk L N}
  {n p : NodeRef L N}

theorem Walked.distinct (hw : h.Walked l xs w) : (NodeRef.root l :: xs).Nodup :=
  nodup_of_predecessors hw.previous hw.away

theorem Walked.follows (hw : h.Walked l xs w) (hwf : h.WellFormed l (xs ++ ys)) :
    w.node = (ys ++ [NodeRef.root l]).head? := by
  obtain ⟨q, hq⟩ : ∃ q, (ys ++ [NodeRef.root l]).head? = some q := by cases ys <;> exact ⟨_, rfl⟩
  rw [hw.node, hq]
  exact (hwf.next.halves hw.last hq).2.1

theorem Walked.ends (hw : h.Walked l xs w) (hwf : h.WellFormed l (xs ++ ys))
    (hnode : w.node = some (.root l)) : ys = [] := by
  cases ys with
  | nil => rfl
  | cons y ys =>
    obtain rfl : NodeRef.root l = y := Option.some.inj (hnode.symm.trans (hw.follows hwf))
    exact absurd (List.mem_append_right _ List.mem_cons_self) (List.nodup_cons.mp hwf.distinct).1

theorem Walked.continues (hw : h.Walked l xs w) (hwf : h.WellFormed l (xs ++ ys))
    (hnode : w.node ≠ some (.root l)) : ∃ y zs, ys = y :: zs ∧ w.node = some y := by
  cases ys with
  | nil => exact absurd (hw.follows hwf) hnode
  | cons y zs => exact ⟨y, zs, rfl, hw.follows hwf⟩

theorem WellFormed.root_linked (hwf : h.WellFormed l xs) : (h.nodes (.root l)).list = some l ∧
    (h.nodes (.root l)).next ≠ none ∧ (h.nodes (.root l)).previous ≠ none := by
  refine ⟨hwf.root, ?_, ?_⟩
  · rw [hwf.next.first]
    cases xs <;> exact Option.some_ne_none _
  · rw [hwf.previous.first_reverse, List.getLast?_cons]
    exact Option.some_ne_none _

theorem walked_nil (hnext : (h.nodes (.root l)).next = some n) :
    h.Walked l [] { previous := .root l, node := some n, count := 0 } where
  last := rfl
  node := hnext.symm
  count := rfl
  bound := Nat.zero_le _
  next := List.isChain_singleton _
  previous := List.isChain_singleton _
  hosted := by simp
  away := List.not_mem_nil

section Step

variable [DecidableEq L] [DecidableEq N]

theorem Walked.step_isSome (hw : h.Walked l xs w) (hwf : h.WellFormed l (xs ++ n :: ys))
    (hnode : w.node = some n) : h.validateStep l w ≠ none := by
  have hlist : (h.nodes n).list = some l := hwf.hosted n (List.mem_append_right _ List.mem_cons_self)
  have hprevious : (h.nodes n).previous = some w.previous := hwf.previous.successor_reverse hw.last
  obtain ⟨q, hq⟩ : ∃ q, (ys ++ [NodeRef.root l]).head? = some q := by cases ys <;> exact ⟨_, rfl⟩
  have hnext : (h.nodes n).next = some q := hwf.next.successor hq
  have hsize : ¬ w.count + 1 > h.size l := by
    rw [hw.count, ← hwf.size, List.length_append, List.length_cons]
    omega
  simp only [validateStep, hnode, hlist, hprevious, hnext, if_neg hsize]
  simp

theorem Walked.step (hw : h.Walked l xs w) (hnode : w.node ≠ some (.root l))
    (hstep : h.validateStep l w = some w') : ∃ n, w.node = some n ∧ h.Walked l (xs ++ [n]) w' := by
  unfold validateStep at hstep
  split at hstep
  · cases hstep
  · next n hn =>
    refine ⟨n, hn, ?_⟩
    split_ifs at hstep with htests hsize
    obtain rfl := Option.some.inj hstep
    simp only [Bool.or_eq_true, decide_eq_true_eq, not_or, not_not] at htests
    obtain ⟨⟨hlist, hprevious⟩, -⟩ := htests
    have hcount := hw.count
    have hlast := hw.last
    have haway : NodeRef.root l ≠ n := by
      rintro rfl
      exact hnode hn
    have hmeet : (h.nodes w.previous).next = some n := hw.node.symm.trans hn
    exact
      { last := by rw [← List.cons_append, List.getLast?_concat]
        node := rfl
        count := by simp [hcount]
        bound := by
          rw [List.length_append, List.length_singleton]
          omega
        next := by
          refine List.isChain_append.mpr ⟨hw.next, List.isChain_singleton n, fun x hx y hy => ?_⟩
          obtain rfl := Option.some.inj (hlast.symm.trans hx)
          obtain rfl := Option.some.inj hy
          exact hmeet
        previous := by
          refine List.isChain_append.mpr ⟨hw.previous, List.isChain_singleton n, fun x hx y hy => ?_⟩
          obtain rfl := Option.some.inj (hlast.symm.trans hx)
          obtain rfl := Option.some.inj hy
          exact hprevious
        hosted := by
          intro r hr
          rcases List.mem_append.mp hr with hr | hr
          · exact hw.hosted r hr
          · rw [List.mem_singleton.mp hr]
            exact hlist
        away := by
          intro hr
          rcases List.mem_append.mp hr with hr | hr
          · exact hw.away hr
          · exact haway (List.mem_singleton.mp hr) }

theorem Walked.end_iff (hw : h.Walked l xs w) (hnode : w.node = some (.root l))
    (hroot : (h.nodes (.root l)).list = some l) (hlast : (h.nodes (.root l)).previous = some p) :
    h.validateEnd l p (some w) = true ↔ ∃ ys, h.WellFormed l (xs ++ ys) := by
  simp only [validateEnd, Bool.and_eq_true, beq_iff_eq, decide_eq_true_eq]
  constructor
  · rintro ⟨⟨hsize, rfl⟩, -⟩
    refine ⟨[], ?_⟩
    rw [List.append_nil]
    have hmeet : (h.nodes w.previous).next = some (.root l) := by rw [← hnode, hw.node]
    exact
      { root := hroot
        size := by rw [← hw.count, hsize]
        distinct := hw.distinct
        next := by
          have hright : List.IsChain (fun x y => (h.nodes x).next = some y) ([] ++ [NodeRef.root l]) :=
            List.isChain_singleton _
          have hloop := Looped.of_halves hw.next hright hw.last rfl hmeet
          rwa [List.append_nil] at hloop
        previous := by
          refine Looped.reverse_iff.mpr ?_
          refine List.isChain_append.mpr ⟨hw.previous, List.isChain_singleton _, fun x hx y hy => ?_⟩
          obtain rfl := Option.some.inj (hw.last.symm.trans hx)
          obtain rfl := Option.some.inj hy
          exact hlast
        hosted := hw.hosted }
  · rintro ⟨ys, hwf⟩
    obtain rfl := hw.ends hwf hnode
    rw [List.append_nil] at hwf
    have hprevious : p = w.previous := by
      have hfirst := hwf.previous.first_reverse
      rw [hw.last, hlast] at hfirst
      exact Option.some.inj hfirst
    refine ⟨⟨by rw [hw.count, hwf.size], hprevious⟩, ?_⟩
    rw [hprevious, ← hw.node, hnode]

theorem Walked.loop (hroot : (h.nodes (.root l)).list = some l)
    (hlast : (h.nodes (.root l)).previous = some p) (hw : h.Walked l xs w) {iterations : Nat}
    (hleft : h.size l + 1 ≤ iterations + xs.length) :
    ∃ result, h.validateLoop l iterations w = some result ∧
      (h.validateEnd l p result = true ↔ ∃ ys, h.WellFormed l (xs ++ ys)) := by
  induction iterations generalizing xs w with
  | zero =>
    have := hw.bound
    omega
  | succ iterations ih =>
    rw [validateLoop]
    by_cases hnode : w.node = some (.root l)
    · rw [if_pos hnode]
      exact ⟨some w, rfl, hw.end_iff hnode hroot hlast⟩
    · rw [if_neg hnode]
      cases hstep : h.validateStep l w with
      | none =>
        refine ⟨none, rfl, ?_⟩
        simp only [validateEnd, Bool.false_eq_true, false_iff]
        rintro ⟨ys, hwf⟩
        obtain ⟨y, zs, rfl, hy⟩ := hw.continues hwf hnode
        exact hw.step_isSome hwf hy hstep
      | some w' =>
        obtain ⟨n, hn, hw'⟩ := hw.step hnode hstep
        obtain ⟨result, hloop, hiff⟩ := ih hw' (by rw [List.length_append, List.length_singleton]; omega)
        refine ⟨result, hloop, hiff.trans ⟨?_, ?_⟩⟩
        · rintro ⟨ys, hwf⟩
          exact ⟨n :: ys, by rwa [List.append_assoc] at hwf⟩
        · rintro ⟨ys, hwf⟩
          obtain ⟨y, zs, rfl, hy⟩ := hw.continues hwf hnode
          obtain rfl := Option.some.inj (hn.symm.trans hy)
          exact ⟨zs, by rwa [List.append_assoc]⟩

theorem validate_some (hnext : (h.nodes (.root l)).next = some n) (hlast : (h.nodes (.root l)).previous = some p)
    (hroot : (h.nodes (.root l)).list = some l) (iterations : Nat) :
    h.validate iterations (some l) =
      (h.validateLoop l iterations { previous := .root l, node := some n, count := 0 }).map (h.validateEnd l p) := by
  simp [validate, hnext, hlast, hroot]

theorem validate_eq_false (hroot : ¬ ((h.nodes (.root l)).list = some l ∧ (h.nodes (.root l)).next ≠ none ∧
      (h.nodes (.root l)).previous ≠ none)) (iterations : Nat) : h.validate iterations (some l) = some false := by
  unfold validate
  split
  · rfl
  · next list hl =>
    cases hl
    split
    · next n p hn hp =>
      rw [if_pos]
      intro hlist
      simp [hlist, hn, hp] at hroot
    · rfl

theorem validate_spec (h : ListHeap L N) (l : L) {iterations : Nat} (hleft : h.size l + 1 ≤ iterations) :
    ∃ b, h.validate iterations (some l) = some b ∧ (b = true ↔ ∃ xs, h.WellFormed l xs) := by
  by_cases hroot : (h.nodes (.root l)).list = some l ∧ (h.nodes (.root l)).next ≠ none ∧
      (h.nodes (.root l)).previous ≠ none
  · obtain ⟨hlist, hnext, hprevious⟩ := hroot
    obtain ⟨n, hn⟩ := Option.ne_none_iff_exists'.mp hnext
    obtain ⟨p, hp⟩ := Option.ne_none_iff_exists'.mp hprevious
    obtain ⟨result, hloop, hiff⟩ := (walked_nil hn).loop hlist hp hleft
    refine ⟨h.validateEnd l p result, ?_, hiff⟩
    rw [validate_some hn hp hlist, hloop]
    rfl
  · refine ⟨false, validate_eq_false hroot iterations, ?_⟩
    simp only [Bool.false_eq_true, false_iff]
    rintro ⟨xs, hwf⟩
    exact hroot hwf.root_linked

end Step

end ListHeap

variable [DecidableEq L] [DecidableEq N]

theorem list_validate_decides (h : ListHeap L N) (l : L) :
    (∀ iterations, h.validate iterations none = some false) ∧
      ∃ b, (∀ more, h.validate (h.size l + 1 + more) (some l) = some b) ∧
        (b = true ↔ ∃ xs, h.WellFormed l xs) := by
  refine ⟨fun _ => rfl, ?_⟩
  obtain ⟨b, -, hb⟩ := h.validate_spec l (Nat.le_refl _)
  refine ⟨b, fun more => ?_, hb⟩
  obtain ⟨b', hvalidate, hb'⟩ := h.validate_spec l (Nat.le_add_right (h.size l + 1) more)
  rw [hvalidate, Bool.eq_iff_iff.mpr (hb'.trans hb.symm)]

omit [DecidableEq L] [DecidableEq N] in
theorem ListHeap.Holds.wellFormed {h : ListHeap L N} {f : ListFamily L N} (hh : h.Holds f) (l : L) :
    h.WellFormed l ((f.seq l).map .node) where
  root := hh.root l
  size := by rw [List.length_map, hh.size]
  distinct := loop_nodup f l
  next := hh.next l
  previous := hh.previous l
  hosted := by
    intro r hr
    obtain ⟨n, hn, rfl⟩ := List.mem_map.mp hr
    rw [hh.list, f.host_of_mem hn]

theorem ListHeap.Holds.validate {h : ListHeap L N} {f : ListFamily L N} (hh : h.Holds f) (l : L) :
    h.validate (h.size l + 1) (some l) = some (listValidate f l) := by
  obtain ⟨b, hvalidate, hb⟩ := h.validate_spec l (Nat.le_refl _)
  rw [hvalidate, listValidate_eq_true, hb.mpr ⟨_, hh.wellFormed l⟩]

end Hairtos
