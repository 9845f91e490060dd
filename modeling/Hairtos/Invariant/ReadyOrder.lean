import Hairtos.Invariant.Recompute
import Hairtos.Library.Ahead

namespace Hairtos

open Library

def Kernel.Requeued (S : TaskRef → Prop) (k k' : Kernel) : Prop :=
  k.scheduler.queues.Requeued S k'.scheduler.queues

def Kernel.Keeps (k k' : Kernel) : Prop :=
  k.Requeued (fun u => (k.tasks u).isWaiting = true ∨ (k'.tasks u).state ≠ (k.tasks u).state ∨
    (k'.tasks u).effectivePriority ≠ (k.tasks u).effectivePriority) k'

section

variable {cfg : Config} {k k' k'' : Kernel} {S T : TaskRef → Prop} {t o : TaskRef}

theorem Kernel.Requeued.of_eq (h : k'.scheduler.queues = k.scheduler.queues) : k.Requeued S k' :=
  ListFamily.Requeued.of_eq h

theorem Kernel.Requeued.trans (h : k.Requeued S k') (h' : k'.Requeued S k'') : k.Requeued S k'' :=
  ListFamily.Requeued.trans h h'

theorem Kernel.Requeued.mono (h : k.Requeued S k') (hST : ∀ u, S u → T u) : k.Requeued T k' :=
  ListFamily.Requeued.mono h hST

theorem Kernel.addReady_requeued (k : Kernel) (t : TaskRef) : k.Requeued (· = t) (k.addReady cfg t).1 := by
  simp only [Kernel.Requeued, Kernel.addReady, schedulerAddReady, readySetInsert]
  split
  · exact .refl
  · by_cases hfree : k.scheduler.queues.host t = none
    · simp only [listPushBack, hfree, ↓reduceDIte, ne_eq, not_true_eq_false, ↓reduceIte]
      exact ListFamily.Requeued.append (S := (· = t)) .refl _ t rfl hfree
    · simp only [listPushBack, hfree, ↓reduceDIte, ne_eq, reduceCtorEq, not_false_eq_true, ↓reduceIte]
      exact .refl

theorem Kernel.removeReady_requeued (k : Kernel) (t : TaskRef) : k.Requeued (· = t) (k.removeReady cfg t).1 := by
  simp only [Kernel.Requeued, Kernel.removeReady, schedulerRemoveReady, readySetRemove]
  split
  · exact .refl
  split
  · exact .refl
  · unfold listRemove
    split
    · exact .refl
    · exact ListFamily.Requeued.unlink (S := (· = t)) .refl t rfl

theorem Kernel.detachNodes_requeued (k : Kernel) (t : TaskRef) (r w : Bool) (l : Option WaitListRef) :
    k.Requeued (· = t) (k.detachNodes cfg t r w l).1 := by
  have hremove : k.Requeued (· = t) (if r then k.removeReady cfg t else (k, .ok)).1 := by
    cases r
    · exact .of_eq rfl
    · exact k.removeReady_requeued t
  unfold Kernel.detachNodes
  generalize (if r then k.removeReady cfg t else (k, .ok)) = p at hremove ⊢
  obtain ⟨k1, status⟩ := p
  dsimp only at hremove ⊢
  split
  · exact hremove
  have hback : k.Requeued (· = t) (if r then (k1.addReady cfg t).1 else k1) := by
    cases r
    · exact hremove
    · exact hremove.trans (k1.addReady_requeued t)
  cases w with
  | false => exact hremove
  | true =>
    cases l with
    | none => exact hback
    | some l =>
      by_cases hok : (k1.waitRemove l t).2 = .ok
      · simp only [↓reduceIte, hok, ne_eq, not_true_eq_false]
        exact hremove
      · simp only [↓reduceIte, hok, ne_eq, not_false_eq_true]
        cases r
        · exact hremove
        · exact hremove.trans (Kernel.addReady_requeued (k1.waitRemove l t).1 t)

theorem Kernel.attachNodes_requeued (k : Kernel) (t : TaskRef) (r w : Bool) (l : Option WaitListRef) :
    k.Requeued (· = t) (k.attachNodes cfg t r w l).1 := by
  have hadd : k.Requeued (· = t) (if r then k.addReady cfg t else (k, .ok)).1 := by
    cases r
    · exact .of_eq rfl
    · exact k.addReady_requeued t
  unfold Kernel.attachNodes
  generalize (if r then k.addReady cfg t else (k, .ok)) = p at hadd ⊢
  obtain ⟨k1, status⟩ := p
  dsimp only at hadd ⊢
  split
  · exact hadd
  · cases w <;> cases l <;> exact hadd

theorem kernelSetTaskEffectivePriority_requeued (k : Kernel) (t : TaskRef) (p : Nat) :
    k.Requeued (fun u => u = t ∧ (k.tasks t).effectivePriority ≠ p)
      (kernelSetTaskEffectivePriority cfg k t p).1 := by
  unfold kernelSetTaskEffectivePriority
  split
  · exact .of_eq rfl
  split
  · exact .of_eq rfl
  next hne =>
  apply Kernel.Requeued.mono (S := (· = t)) _ (fun u hu => ⟨hu, hne⟩)
  have hdetach := @Kernel.detachNodes_requeued cfg k t (listNodeIsLinked k.scheduler.queues t)
    (listNodeIsLinked k.waitLists.lists t) (k.tasks t).blockedWaitList
  dsimp only
  split
  · exact hdetach
  · refine Kernel.Requeued.trans ?_ (Kernel.attachNodes_requeued _ t _ _ _)
    exact hdetach

theorem isWaiting_of_mutexNextOwner {ms : Mutexes} {n : TaskRef} (h : mutexNextOwner k ms o = some n) :
    (k.tasks o).isWaiting = true := by
  by_contra hw
  simp [mutexNextOwner, hw] at h

theorem mutexRecomputeTaskPriority_requeued {ms : Mutexes} (fuel : Nat) (h : k.Linked cfg) (hi : Inherits cfg k ms)
    (hm : (k.tasks o).magic = true) (hb : (k.tasks o).basePriority < cfg.idlePriority) :
    k.Requeued (fun u => (k.tasks u).isWaiting = true ∨
        ((mutexRecomputeTaskPriority cfg ms fuel k o).1.tasks u).effectivePriority ≠ (k.tasks u).effectivePriority)
      (mutexRecomputeTaskPriority cfg ms fuel k o).1 := by
  induction fuel generalizing k o with
  | zero => exact .of_eq rfl
  | succ fuel ih =>
    have hset := @kernelSetTaskEffectivePriority_requeued cfg k o (mutexRequiredPriority k ms o)
    obtain ⟨k1, he, h1, hi1, hr, htasks, hcases⟩ := mutexRecomputeTaskPriority_round h hi hm hb fuel
    rw [he] at hset
    have heff := effectivePriority_update htasks
    rcases hcases with ⟨-, heq⟩ | ⟨n, hn, hown, heq⟩
    · rw [heq]
      apply hset.mono
      rintro u ⟨rfl, hne⟩
      right
      rw [heff u, if_pos rfl]
      exact hne.symm
    · rw [heq]
      have hwaits := isWaiting_of_mutexNextOwner hn
      obtain ⟨m, hown⟩ := hown
      obtain ⟨hm1, hb1⟩ := hi1.owners m n hown
      refine (hset.mono ?_).trans ((ih h1 hi1 hm1 hb1).mono ?_)
      · rintro u ⟨rfl, -⟩
        exact Or.inl hwaits
      · rintro u (hu | hu)
        · left
          rwa [← hr.isWaiting u]
        · by_cases huo : u = o
          · left
            rw [huo]
            exact hwaits
          · right
            rwa [heff u, if_neg huo] at hu

theorem taskTransitionState_scheduler (k : Kernel) (t : TaskRef) (expected next : TaskState) :
    (taskTransitionState k t expected next).1.scheduler = k.scheduler := by
  unfold taskTransitionState
  split
  · rfl
  · split <;> rfl

theorem Kernel.completeWait_requeued (k : Kernel) (t : TaskRef) (result : Status) (suspended : Bool) :
    k.Requeued (· = t) (k.completeWait cfg t result suspended).1 := by
  unfold Kernel.completeWait
  dsimp only
  generalize hk1 : kernelReloadTimeSlice cfg (k.updateTask t _) t = k1
  have h1 : k1.scheduler = k.scheduler := by
    rw [← hk1]
    rfl
  cases suspended with
  | true => exact .of_eq (by rw [← h1]; rfl)
  | false =>
    have hadd : k.Requeued (· = t) (k1.addReady cfg t).1 :=
      Kernel.Requeued.trans (.of_eq (by rw [h1])) (k1.addReady_requeued t)
    generalize k1.addReady cfg t = r at hadd ⊢
    obtain ⟨k2, status⟩ := r
    have hstate := taskTransitionState_scheduler k2 t .blocked .ready
    generalize taskTransitionState k2 t .blocked .ready = r at hstate ⊢
    obtain ⟨k3, status'⟩ := r
    dsimp only at hadd hstate ⊢
    have h3 : k.Requeued (· = t) k3 := hadd.trans (.of_eq (by rw [hstate]))
    simp only [Bool.false_eq_true, ↓reduceIte]
    split
    · exact hadd
    split
    · exact h3.trans (k3.removeReady_requeued t)
    · exact h3

theorem Kernel.detachWait_frame (k : Kernel) (t : TaskRef) :
    (k.detachWait t).1.scheduler = k.scheduler ∧ (k.detachWait t).1.tasks = k.tasks := by
  unfold Kernel.detachWait Kernel.leaveWaitList
  cases (k.tasks t).blockedWaitList with
  | none =>
    simp only [ne_eq, not_true_eq_false, ↓reduceIte]
    split <;> exact ⟨rfl, rfl⟩
  | some l =>
    dsimp only
    split
    · exact ⟨rfl, rfl⟩
    · split <;> exact ⟨rfl, rfl⟩

theorem kernelMakeTaskReady_requeued (ms : Mutexes) (k : Kernel) (t : TaskRef) {result : Status}
    (hr : result ≠ .timeout) :
    k.Requeued (· = t) (kernelMakeTaskReady cfg ms k t result).1 := by
  unfold kernelMakeTaskReady
  have hdetach := (k.detachWait_frame t).1
  generalize k.detachWait t = r at hdetach ⊢
  obtain ⟨k1, status⟩ := r
  dsimp only at hdetach ⊢
  have h1 : k.Requeued (· = t) k1 := .of_eq (by rw [hdetach])
  split
  · exact .of_eq rfl
  split
  · exact .of_eq rfl
  split
  · exact h1
  · have hclean : k1.runCleanup cfg ms t (k.tasks t).waitCleanup result = k1 := by
      cases (k.tasks t).waitCleanup with
      | none => rfl
      | some c => simp [Kernel.runCleanup, mutexWaitCleanup, hr]
    rw [hclean]
    exact h1.trans (k1.completeWait_requeued t _ _)

end

end Hairtos
