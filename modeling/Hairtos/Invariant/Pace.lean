import Hairtos.Invariant.Waits

namespace Hairtos

open Library

structure SamePace (k k' : Kernel) : Prop where
  state : ∀ t, (k'.tasks t).state = (k.tasks t).state
  slice : ∀ t, (k'.tasks t).timeSliceRemaining = (k.tasks t).timeSliceRemaining
  runtime : ∀ t, (k'.tasks t).runtimeCounter = (k.tasks t).runtimeCounter
  timeSlice : k'.switchReasons.timeSlice = k.switchReasons.timeSlice

structure Paced (k k' : Kernel) : Prop where
  running : ∀ t, (k'.tasks t).state = .running → (k.tasks t).state = .running
  slice : ∀ t, (k.tasks t).state.isReady = true → (k'.tasks t).state.isReady = true →
    (k'.tasks t).timeSliceRemaining = (k.tasks t).timeSliceRemaining
  runtime : ∀ t, (k.tasks t).state.isReady = true →
    (k'.tasks t).runtimeCounter = (k.tasks t).runtimeCounter
  timeSlice : k'.switchReasons.timeSlice = k.switchReasons.timeSlice

section

variable {cfg : Config} {k k' k'' : Kernel} {s s' : System} {t : TaskRef}

theorem SamePace.paced (h : SamePace k k') : Paced k k' :=
  ⟨fun t ht => (h.state t).symm.trans ht, fun t _ _ => h.slice t, fun t _ => h.runtime t, h.timeSlice⟩

theorem SamePace.trans (h : SamePace k k') (h' : SamePace k' k'') : SamePace k k'' where
  state := fun t => (h'.state t).trans (h.state t)
  slice := fun t => (h'.slice t).trans (h.slice t)
  runtime := fun t => (h'.runtime t).trans (h.runtime t)
  timeSlice := h'.timeSlice.trans h.timeSlice

theorem Paced.refl (k : Kernel) : Paced k k := ⟨fun _ h => h, fun _ _ _ => rfl, fun _ _ => rfl, rfl⟩

theorem Paced.of_one (t : TaskRef) (hothers : ∀ u, u ≠ t → (k'.tasks u).state = (k.tasks u).state ∧
      (k'.tasks u).timeSliceRemaining = (k.tasks u).timeSliceRemaining ∧
      (k'.tasks u).runtimeCounter = (k.tasks u).runtimeCounter)
    (hrunning : (k'.tasks t).state ≠ .running)
    (hready : (k.tasks t).state.isReady = false ∨ (k'.tasks t).state.isReady = false)
    (hruntime : (k.tasks t).state.isReady = true → (k'.tasks t).runtimeCounter = (k.tasks t).runtimeCounter)
    (htimeSlice : k'.switchReasons.timeSlice = k.switchReasons.timeSlice) : Paced k k' := by
  refine ⟨fun u hu => ?_, fun u hu hu' => ?_, fun u hu => ?_, htimeSlice⟩
  all_goals by_cases hut : u = t
  · exact absurd (hut ▸ hu) hrunning
  · rwa [← (hothers u hut).1]
  · subst hut
    simp [hu, hu'] at hready
  · exact (hothers u hut).2.1
  · subst hut
    exact hruntime hu
  · exact (hothers u hut).2.2

theorem Paced.same (h : Paced k k') (h' : SamePace k' k'') : Paced k k'' where
  running := fun t ht => h.running t ((h'.state t).symm.trans ht)
  slice := fun t ht ht' => (h'.slice t).trans (h.slice t ht (by rwa [h'.state t] at ht'))
  runtime := fun t ht => (h'.runtime t).trans (h.runtime t ht)
  timeSlice := h'.timeSlice.trans h.timeSlice

theorem SamePace.before (h : SamePace k k') (h' : Paced k' k'') : Paced k k'' where
  running := fun t ht => (h.state t).symm.trans (h'.running t ht)
  slice := fun t ht ht' => (h'.slice t (by rwa [h.state t]) ht').trans (h.slice t)
  runtime := fun t ht => (h'.runtime t (by rwa [h.state t])).trans (h.runtime t)
  timeSlice := h'.timeSlice.trans h.timeSlice

theorem Kernel.Calm.samePace (h : k.Calm k') : SamePace k k' :=
  ⟨fun t => by rw [h.tasks], fun t => by rw [h.tasks], fun t => by rw [h.tasks], h.timeSlice⟩

theorem Reprio.samePace (h : Reprio k k') : SamePace k k' :=
  ⟨fun t => by rw [h.tasks t], fun t => by rw [h.tasks t], fun t => by rw [h.tasks t], by rw [h.frame]⟩

theorem Kernel.countOwned_samePace (k : Kernel) (t : TaskRef) (f : Nat → Nat) : SamePace k (k.countOwned t f) := by
  refine ⟨fun u => ?_, fun u => ?_, fun u => ?_, rfl⟩
  all_goals
    by_cases hu : u = t
    · subst hu
      simp [Kernel.countOwned, Kernel.updateTask]
    · simp [Kernel.countOwned, Kernel.updateTask, hu]

theorem Kernel.Sound.not_isReady_of_wait (g : k.Sound cfg) {w : Wait} (hw : (k.tasks t).wait = some w) :
    (k.tasks t).state.isReady = false := by
  by_contra hr
  have := (g.shape t).wait_none_of_isReady (by simpa [Kernel.view] using hr)
  simp [Kernel.view, hw] at this

theorem Woken.paced {result : Status} (h : Woken cfg k t result k') (g : k.Sound cfg) {w : Wait}
    (hw : (k.tasks t).wait = some w) : Paced k k' := by
  refine .of_one t (fun u hu => ?_) ?_ (Or.inl (g.not_isReady_of_wait hw)) ?_ (by rw [h.frame])
  · rw [h.others u hu]
    exact ⟨rfl, rfl, rfl⟩
  · rw [h.task]
    simp only [wokenBlock]
    split <;> simp
  · rw [h.task]
    exact fun _ => rfl

theorem Kernel.startWait_paced (k : Kernel) (t : TaskRef) (w : Wait) (ticks : Option Tick) :
    Paced k (k.startWait cfg t w ticks) := by
  refine .of_one t (fun u hu => ?_) ?_ (Or.inr ?_) ?_ rfl
  · simp [Kernel.startWait, hu]
  · simp [Kernel.startWait, waitingBlock]
  · simp [Kernel.startWait, waitingBlock, TaskState.isReady]
  · simp [Kernel.startWait, waitingBlock]

theorem Kernel.suspend_paced (k : Kernel) (t : TaskRef) : Paced k (k.suspend cfg t) := by
  refine .of_one t (fun u hu => ?_) ?_ (Or.inr ?_) ?_ ?_
  · simp [Kernel.suspend, hu]
  · simp [Kernel.suspend, suspendedBlock]
  · simp [Kernel.suspend, suspendedBlock, TaskState.isReady]
  · simp [Kernel.suspend, suspendedBlock]
  · simp only [Kernel.suspend]
    split <;> rfl

theorem Kernel.resume_paced {t : TaskRef} (hs : (k.tasks t).state = .suspended) : Paced k (k.resume cfg t) := by
  refine .of_one t (fun u hu => ?_) ?_ (Or.inl (by simp [hs, TaskState.isReady])) ?_ rfl
  · simp [Kernel.resume, hu]
  · simp only [Kernel.resume, Function.update_self, resumedBlock]
    split <;> simp
  · simp [Kernel.resume, resumedBlock]

theorem Kernel.create_paced (hm : (k.tasks t).state.isReady = false) (priority : Nat) :
    Paced k (k.create cfg t priority) := by
  refine .of_one t (fun u hu => ?_) ?_ (Or.inl hm) (by simp [hm]) rfl
  · simp [Kernel.create, hu]
  · simp [Kernel.create, createdBlock]

theorem Kernel.register_paced (hc : (k.tasks t).state = .created) : Paced k (k.register cfg t) := by
  have hnot : (k.tasks t).state.isReady = false := by simp [hc, TaskState.isReady]
  refine .of_one t (fun u hu => ?_) ?_ (Or.inl hnot) (by simp [hnot]) rfl
  · simp [Kernel.register, hu]
  · simp [Kernel.register]

theorem UnlockEffect.paced {m : MutexRef} (h : UnlockEffect cfg s m t s') (g : s.kernel.Good cfg) :
    Paced s.kernel s'.kernel := by
  cases h with
  | again => exact .refl _
  | freed k k' _ hreprio hcalm =>
    exact (((s.kernel.countOwned_samePace t _).trans hreprio.samePace).trans hcalm.samePace).paced
  | handed u k k' k'' _ hwait hwoken hreprio hcalm =>
    have hbook := (s.kernel.bookkept_countOwned t (· - 1)).trans (Kernel.bookkept_countOwned _ u (· + 1))
    have hcounts := (s.kernel.countOwned_samePace t (· - 1)).trans (Kernel.countOwned_samePace _ u (· + 1))
    have hw := (hbook.wait u).trans hwait
    exact hcounts.before (((hwoken.paced (g.bookkept hbook).toSound hw).same hreprio.samePace).same hcalm.samePace)

theorem Action.paced {owed : Bool} (h : Action cfg s owed s') (g : s.Good cfg) : Paced s.kernel s'.kernel := by
  cases h with
  | calm k timers service anchors hcalm => exact hcalm.samePace.paced
  | createTask t priority hfresh =>
    refine Kernel.create_paced ?_ priority
    by_contra hr
    have := (g.kernel.shape t).magic_of_isReady (by simpa [Kernel.view] using hr)
    simp [Kernel.view, hfresh] at this
  | startTask t hstate hcreated => exact Kernel.register_paced hcreated
  | delay t ticks anchors => exact (s.kernel.startWait_paced t _ _).same (Kernel.calm_requestContextSwitch _).samePace
  | suspend t k hstate hidle hcalm => exact (s.kernel.suspend_paced t).same hcalm.samePace
  | resume t k hstate hidle hcalm => exact (Kernel.resume_paced hstate).same hcalm.samePace
  | give x s₁ woken status k owed hvalid heffect hcalm =>
    refine Paced.same ?_ hcalm.samePace
    cases heffect with
    | served u k _ hwait hgranted => exact hgranted.woken.paced g.kernel.toSound hwait
    | counted => exact .refl _
    | full => exact .refl _
  | take x timeout s₁ outcome hcaller hvalid heffect =>
    cases heffect with
    | counted => exact .refl _
    | waits t => exact (s.kernel.startWait_paced t _ _).same (Kernel.calm_requestContextSwitch _).samePace
  | send q item timeout sender r k owed hcaller hvalid heffect hcalm =>
    refine Paced.same ?_ hcalm.samePace
    cases heffect with
    | served u b k _ hwait hgranted => exact hgranted.woken.paced g.kernel.toSound hwait
    | stored => exact .refl _
    | waits t => exact s.kernel.startWait_paced t _ _
    | full => exact .refl _
  | receive q item timeout receiver r k owed hcaller hvalid heffect hcalm =>
    refine Paced.same ?_ hcalm.samePace
    cases heffect with
    | taken => exact .refl _
    | refilled u b k _ _ hwait hgranted => exact hgranted.woken.paced g.kernel.toSound hwait
    | direct u b k _ _ hwait hgranted => exact hgranted.woken.paced g.kernel.toSound hwait
    | waits t => exact s.kernel.startWait_paced t _ _
    | empty => exact .refl _
  | unlock m t s₁ hruns howner heffect => exact heffect.paced g.kernel
  | expire t w k hdue hwait hwoken => exact hwoken.paced g.kernel.toSound hwait
  | _ => exact .refl _

end

end Hairtos
