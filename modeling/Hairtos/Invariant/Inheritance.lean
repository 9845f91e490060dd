import Hairtos.Invariant.Priority
import Hairtos.Library.Chain
import Mathlib.Order.Bounds.Basic

/-!
Priority inheritance. A task is balanced when its effective priority is the most urgent among its own
base priority and the priorities of the tasks that wait for a mutex it owns. The recomputation makes
one task balanced and hands the imbalance on to the owner that this task waits for.
-/

namespace Hairtos

open Library

variable {k' : Kernel}

def donors (k : Kernel) (ms : Mutexes) (t : TaskRef) : Set Nat :=
  { p | p = (k.tasks t).basePriority ∨ ∃ m u, ms.owned.host m = some t ∧
    k.waitLists.lists.host u = some (.mutex m) ∧ p = k.waitLists.priority u }

def Balanced (k : Kernel) (ms : Mutexes) (t : TaskRef) : Prop :=
  IsLeast (donors k ms t) (k.tasks t).effectivePriority

theorem mutexRequiredPriorityLoop_spec (hs : k.waitLists.Sorted) (ms : Mutexes) (base : Nat)
    (xs : List MutexRef) (hxs : ∀ m ∈ xs, (ms.blocks m).magic = true) (p : Nat) :
    mutexRequiredPriorityLoop k ms base p xs ≤ p ∧
    (∀ m ∈ xs, ∀ u, k.waitLists.lists.host u = some (.mutex m) →
      mutexRequiredPriorityLoop k ms base p xs ≤ k.waitLists.priority u) ∧
    (mutexRequiredPriorityLoop k ms base p xs = p ∨ ∃ m ∈ xs, ∃ u, k.waitLists.lists.host u =
      some (.mutex m) ∧
      mutexRequiredPriorityLoop k ms base p xs = k.waitLists.priority u) := by
  induction xs generalizing p with
  | nil => simp [mutexRequiredPriorityLoop]
  | cons m xs ih =>
    have ih := ih (fun n hn => hxs n (List.mem_cons_of_mem m hn))
    have hm := hxs m List.mem_cons_self
    cases hp : waitListPeek k.waitLists (.mutex m) with
    | none =>
      have hnil := (waitListPeek_eq_none _ _).mp hp
      have heq : mutexRequiredPriorityLoop k ms base p (m :: xs) = mutexRequiredPriorityLoop k ms base p xs := by
        simp [mutexRequiredPriorityLoop, hm, hp]
      obtain ⟨hle, hall, hex⟩ := ih p
      rw [heq]
      refine ⟨hle, ?_, ?_⟩
      · intro n hn u hu
        rcases List.mem_cons.mp hn with rfl | hn
        · have hmem := (k.waitLists.lists.mem_seq _ _).mpr hu
          simp [hnil] at hmem
        · exact hall n hn u hu
      · exact hex.imp_right (fun ⟨n, hn, u, hu⟩ => ⟨n, List.mem_cons_of_mem m hn, u, hu⟩)
    | some w =>
      have heq : mutexRequiredPriorityLoop k ms base p (m :: xs) =
          mutexRequiredPriorityLoop k ms base (min (k.waitLists.priority w) p) xs := by
        simp only [mutexRequiredPriorityLoop, hm, hp, Bool.not_true, Bool.false_eq_true, ↓reduceIte]
        congr 1
        split_ifs with hlt
        · exact (min_eq_left hlt.le).symm
        · exact (min_eq_right (not_lt.mp hlt)).symm
      obtain ⟨hle, hall, hex⟩ := ih (min (k.waitLists.priority w) p)
      rw [heq]
      refine ⟨hle.trans (min_le_right _ _), ?_, ?_⟩
      · intro n hn u hu
        rcases List.mem_cons.mp hn with rfl | hn
        · exact (hle.trans (min_le_left _ _)).trans (hs.peek_le hp hu)
        · exact hall n hn u hu
      · rcases hex with hex | ⟨n, hn, u, hu⟩
        · rcases min_choice (k.waitLists.priority w) p with hmin | hmin
          · exact Or.inr ⟨m, List.mem_cons_self, w, waitListPeek_host _ hp, hex.trans hmin⟩
          · exact Or.inl (hex.trans hmin)
        · exact Or.inr ⟨n, List.mem_cons_of_mem m hn, u, hu⟩

theorem mutexRequiredPriority_isLeast (hs : k.waitLists.Sorted) (ms : Mutexes) (t : TaskRef)
    (hm : ∀ m, ms.owned.host m = some t → (ms.blocks m).magic = true) :
    IsLeast (donors k ms t) (mutexRequiredPriority k ms t) := by
  obtain ⟨hle, hall, hex⟩ := mutexRequiredPriorityLoop_spec hs ms (k.tasks t).basePriority (ms.owned.seq t)
    (fun m hx => hm m (ms.owned.host_of_mem hx)) (k.tasks t).basePriority
  constructor
  · rcases hex with hex | ⟨m, hx, u, hu, he⟩
    · exact Or.inl hex
    · exact Or.inr ⟨m, u, ms.owned.host_of_mem hx, hu, he⟩
  · rintro p (rfl | ⟨m, u, hx, hu, rfl⟩)
    · exact hle
    · exact hall m ((ms.owned.mem_seq t m).mpr hx) u hu

structure Inherits (cfg : Config) (k : Kernel) (ms : Mutexes) : Prop where
  owner : ∀ m t, (ms.blocks m).owner = some t ↔ ms.owned.host m = some t
  magic : ∀ m t, (ms.blocks m).owner = some t → (ms.blocks m).magic = true
  owners : ∀ m t, (ms.blocks m).owner = some t →
    (k.tasks t).magic = true ∧ (k.tasks t).basePriority < cfg.idlePriority
  waits : ∀ u m, k.waitLists.lists.host u = some (.mutex m) →
    (k.tasks u).magic = true ∧ (k.tasks u).isWaiting = true ∧ (k.tasks u).waitKind = .mutexLock ∧
      (k.tasks u).waitingObject = some (.mutex m) ∧ (ms.blocks m).owner ≠ some u

theorem Reprio.isWaiting (h : Reprio k k') (t : TaskRef) :
    (k'.tasks t).isWaiting = (k.tasks t).isWaiting := by
  rw [h.tasks t]
  rfl

theorem Reprio.mutexNextOwner (h : Reprio k k') (ms : Mutexes) :
    mutexNextOwner k' ms = mutexNextOwner k ms := by
  funext t
  have hvalid : taskIsValid k' = taskIsValid k := by
    funext u
    simp only [taskIsValid]
    rw [h.tasks u]
  unfold Hairtos.mutexNextOwner
  rw [h.isWaiting t, hvalid, h.tasks t]

theorem Inherits.reprio {cfg : Config} (h : Inherits cfg k ms) (hr : Reprio k k') :
    Inherits cfg k' ms where
  owner := h.owner
  magic := h.magic
  owners := by
    intro m t ho
    rw [hr.tasks t]
    exact h.owners m t ho
  waits := by
    intro u m hu
    rw [hr.waitHost] at hu
    rw [hr.isWaiting u, hr.tasks u]
    exact h.waits u m hu

theorem Inherits.next_of_waits {cfg : Config} (h : Inherits cfg k ms) {u t : TaskRef}
    {m : MutexRef} (hu : k.waitLists.lists.host u = some (.mutex m)) (ho : ms.owned.host m = some t) :
    mutexNextOwner k ms u = some t := by
  obtain ⟨-, hw, hk, hobj, hne⟩ := h.waits u m hu
  have howner := (h.owner m t).mpr ho
  have htu : t ≠ u := by
    rintro rfl
    exact hne howner
  simp [mutexNextOwner, hw, hk, hobj, h.magic m t howner, howner, taskIsValid, (h.owners m t howner).1, htu]

theorem owner_of_mutexNextOwner {u t : TaskRef}
    (hn : mutexNextOwner k ms u = some t) : ∃ m, (ms.blocks m).owner = some t := by
  unfold mutexNextOwner at hn
  split at hn
  · simp at hn
  · split at hn
    · rename_i m _
      split at hn
      · simp at hn
      · split at hn
        · simp at hn
        · rename_i owner ho
          split at hn
          · exact ⟨m, by rw [ho, ← hn]⟩
          · simp at hn
    · simp at hn

section Recompute

variable {cfg : Config} {k : Kernel} {ms : Mutexes}

theorem donors_eq (h : k.Linked cfg) (h' : k'.Linked cfg) (hi : Inherits cfg k ms) (hr : Reprio k k')
    (t : TaskRef) (hsame : ∀ u m, k.waitLists.lists.host u = some (.mutex m) → ms.owned.host m = some t →
      (k'.tasks u).effectivePriority = (k.tasks u).effectivePriority) :
    donors k' ms t = donors k ms t := by
  have hbase : (k'.tasks t).basePriority = (k.tasks t).basePriority := by rw [hr.tasks t]
  have hprio : ∀ u m, k.waitLists.lists.host u = some (.mutex m) → ms.owned.host m = some t →
      k'.waitLists.priority u = k.waitLists.priority u := by
    intro u m hu ho
    have hm := (hi.waits u m hu).1
    have hm' : (k'.tasks u).magic = true := by rwa [hr.tasks u]
    rw [(h'.agree u hm').2, (h.agree u hm).2, hsame u m hu ho]
  ext p
  simp only [donors, hr.waitHost, hbase, Set.mem_ofPred_eq]
  refine or_congr_right ⟨?_, ?_⟩
  · rintro ⟨m, u, ho, hu, rfl⟩
    exact ⟨m, u, ho, hu, hprio u m hu ho⟩
  · rintro ⟨m, u, ho, hu, rfl⟩
    exact ⟨m, u, ho, hu, (hprio u m hu ho).symm⟩

theorem balanced_step (h : k.Linked cfg) (h' : k'.Linked cfg) (hi : Inherits cfg k ms)
    (hr : Reprio k k') {o : TaskRef}
    (htasks : k'.tasks = Function.update k.tasks o
      { k.tasks o with effectivePriority := mutexRequiredPriority k ms o })
    (t : TaskRef) (hbal : t ≠ o → Balanced k ms t) (ht : mutexNextOwner k ms o ≠ some t) : Balanced k' ms t := by
  have hsame : donors k' ms t = donors k ms t := by
    apply donors_eq h h' hi hr
    intro u m hu ho
    have huo : u ≠ o := by
      rintro rfl
      exact ht (hi.next_of_waits hu ho)
    simp [htasks, huo]
  unfold Balanced
  rw [hsame, htasks]
  by_cases hto : t = o
  · subst hto
    simpa using mutexRequiredPriority_isLeast h.sorted ms t
      (fun m hm => hi.magic m t ((hi.owner m t).mpr hm))
  · rw [Function.update_of_ne hto]
    exact hbal hto

theorem mutexRequiredPriority_le (h : k.Linked cfg) (hi : Inherits cfg k ms) (t : TaskRef) :
    mutexRequiredPriority k ms t ≤ (k.tasks t).basePriority :=
  (mutexRequiredPriority_isLeast h.sorted ms t (fun m hm => hi.magic m t ((hi.owner m t).mpr hm))).2 (Or.inl rfl)

theorem mutexRecomputeTaskPriority_spec (fuel : Nat) (h : k.Linked cfg) (hi : Inherits cfg k ms) (o : TaskRef)
    (hm : (k.tasks o).magic = true) (hb : (k.tasks o).basePriority < cfg.idlePriority) :
    ∃ k' status, mutexRecomputeTaskPriority cfg ms fuel k o = (k', status) ∧ k'.Linked cfg ∧ Reprio k k' ∧
      (∀ t, (k.tasks t).effectivePriority ≤ (k.tasks t).basePriority →
        (k'.tasks t).effectivePriority ≤ (k.tasks t).basePriority) ∧
      (∀ t, t ≠ o → (∀ m, (ms.blocks m).owner ≠ some t) → k'.tasks t = k.tasks t) ∧
      (EndsWithin (mutexNextOwner k ms) fuel o ∧ status = .ok ∨
        ¬ EndsWithin (mutexNextOwner k ms) fuel o ∧ status = .internal) ∧
      (status = .ok → ∀ t, (t ≠ o → Balanced k ms t) → Balanced k' ms t) := by
  induction fuel generalizing k o with
  | zero =>
    exact ⟨k, .internal, rfl, h, Reprio.refl k, fun _ ht => ht, fun _ _ _ => rfl, Or.inr ⟨id, rfl⟩, by simp⟩
  | succ fuel ih =>
    have hle := mutexRequiredPriority_le h hi o
    obtain ⟨k1, he, h1, hr1, htasks, -⟩ := kernelSetTaskEffectivePriority_spec h o _ hm (hle.trans_lt hb)
    have heff : ∀ t, (k.tasks t).effectivePriority ≤ (k.tasks t).basePriority →
        (k1.tasks t).effectivePriority ≤ (k.tasks t).basePriority := by
      intro t ht
      by_cases hto : t = o
      · simp [htasks, hto, hle]
      · simpa [htasks, hto] using ht
    have hkeep : ∀ t, t ≠ o → k1.tasks t = k.tasks t := by
      intro t hto
      simp [htasks, hto]
    have hnext := hr1.mutexNextOwner ms
    cases hn : mutexNextOwner k ms o with
    | none =>
      refine ⟨k1, .ok, ?_, h1, hr1, heff, fun t hto _ => hkeep t hto, Or.inl ⟨?_, rfl⟩, ?_⟩
      · simp [mutexRecomputeTaskPriority, he, hnext, hn]
      · intro b hb'
        simp [hn] at hb'
      · intro _ t hbal
        exact balanced_step h h1 hi hr1 htasks t hbal (by simp [hn])
    | some owner =>
      obtain ⟨m, ho⟩ := owner_of_mutexNextOwner hn
      have hi1 := hi.reprio hr1
      obtain ⟨hm1, hb1⟩ := hi1.owners m owner ho
      obtain ⟨k', status, he', h', hr', heff', hkeep', hends, hbal'⟩ := ih h1 hi1 owner hm1 hb1
      have hbase : ∀ t, (k1.tasks t).basePriority = (k.tasks t).basePriority := by
        intro t
        rw [hr1.tasks t]
      refine ⟨k', status, ?_, h', hr1.trans hr', ?_, ?_, ?_, ?_⟩
      · simp [mutexRecomputeTaskPriority, he, hnext, hn, he']
      · intro t ht
        rw [← hbase t]
        apply heff'
        rw [hbase t]
        exact heff t ht
      · intro t hto hno
        have htw : t ≠ owner := by
          rintro rfl
          exact hno m ho
        rw [hkeep' t htw hno, hkeep t hto]
      · have hiff : EndsWithin (mutexNextOwner k ms) (fuel + 1) o ↔
            EndsWithin (mutexNextOwner k1 ms) fuel owner := by
          rw [hnext]
          constructor
          · exact fun hw => hw owner hn
          · intro hw b hb'
            rw [hn] at hb'
            exact Option.some.inj hb' ▸ hw
        rw [hiff]
        exact hends
      · intro hs t hbal
        apply hbal' hs
        intro hto
        exact balanced_step h h1 hi hr1 htasks t hbal (by rw [hn]; exact fun h => hto (Option.some.inj h).symm)

end Recompute

end Hairtos
