import Hairtos.Invariant.Change
import Hairtos.Invariant.Pace

namespace Hairtos

open Library

structure Kernel.Mild (k k' : Kernel) : Prop where
  requeued : k.Requeued (fun u => (k.tasks u).state.isReady = false ∨ (k'.tasks u).state.isReady = false) k'
  tasks : ∀ u, (k.tasks u).state.isReady = true → (k'.tasks u).state.isReady = true → k'.tasks u = k.tasks u
  running : ∀ u, (k'.tasks u).state = .running → (k.tasks u).state = .running
  current : k'.currentTask = k.currentTask
  timeSlice : k'.switchReasons.timeSlice = k.switchReasons.timeSlice

section

variable {cfg : Config} {s : System} {c : Call} {k k' k'' : Kernel} {t : TaskRef}

theorem Kernel.Mild.refl (k : Kernel) : k.Mild k := ⟨.of_eq rfl, fun _ _ _ => rfl, fun _ h => h, rfl, rfl⟩

theorem Kernel.Mild.calm (h : k.Mild k') (hcalm : k'.Calm k'') : k.Mild k'' := by
  refine ⟨?_, ?_, ?_, hcalm.sameRun.currentTask.trans h.current, hcalm.timeSlice.trans h.timeSlice⟩
  · rw [hcalm.tasks]
    exact h.requeued.trans (.of_eq (by rw [hcalm.frame]))
  · rw [hcalm.tasks]
    exact h.tasks
  · rw [hcalm.tasks]
    exact h.running

theorem Kernel.Mild.of_one (hqueues : k.Requeued (· = t) k') (hothers : ∀ u, u ≠ t → k'.tasks u = k.tasks u)
    (hready : (k.tasks t).state.isReady = false ∨ (k'.tasks t).state.isReady = false)
    (hrunning : (k'.tasks t).state ≠ .running) (hcurrent : k'.currentTask = k.currentTask)
    (htimeSlice : k'.switchReasons.timeSlice = k.switchReasons.timeSlice) : k.Mild k' := by
  refine ⟨hqueues.mono (fun u hu => hu ▸ hready), ?_, ?_, hcurrent, htimeSlice⟩
  · intro u hu hu'
    apply hothers
    rintro rfl
    simp [hu, hu'] at hready
  · intro u hu
    rwa [hothers u (by rintro rfl; exact hrunning hu)] at hu

theorem Kernel.startWait_mild (k : Kernel) (t : TaskRef) (w : Wait) (ticks : Option Tick) :
    k.Mild (k.startWait cfg t w ticks) := by
  refine .of_one (t := t) (k.removeReady_requeued t) (fun u hu => ?_) (Or.inr ?_) ?_ rfl rfl
  · simp [Kernel.startWait, hu]
  · simp [Kernel.startWait, waitingBlock, TaskState.isReady]
  · simp [Kernel.startWait, waitingBlock]

theorem Kernel.suspend_mild (k : Kernel) (t : TaskRef) : k.Mild (k.suspend cfg t) := by
  refine .of_one (t := t) ?_ (fun u hu => ?_) (Or.inr ?_) ?_ rfl ?_
  · unfold Kernel.suspend
    split_ifs
    · exact .of_eq rfl
    · exact .of_eq rfl
    · exact k.removeReady_requeued t
    · exact k.removeReady_requeued t
  · simp [Kernel.suspend, hu]
  · simp [Kernel.suspend, suspendedBlock, TaskState.isReady]
  · simp [Kernel.suspend, suspendedBlock]
  · simp only [Kernel.suspend]
    split <;> rfl

theorem Kernel.resume_mild (hs : (k.tasks t).state = .suspended) : k.Mild (k.resume cfg t) := by
  refine .of_one (t := t) ?_ (fun u hu => ?_) (Or.inl (by simp [hs, TaskState.isReady])) ?_ rfl rfl
  · unfold Kernel.resume
    split_ifs
    · exact .of_eq rfl
    · exact k.addReady_requeued t
  · simp [Kernel.resume, hu]
  · simp only [Kernel.resume, Function.update_self, resumedBlock]
    split <;> simp

theorem Granted.mild (h : Granted cfg k t k') (g : k.Sound cfg) {w : Wait} (hw : (k.tasks t).wait = some w) :
    k.Mild k' := by
  refine .of_one h.queues (fun u hu => ?_) (Or.inl (g.not_isReady_of_wait hw)) ?_ h.woken.control.currentTask ?_
  · rw [h.woken.others u hu, h.effective u]
  · rw [h.woken.task]
    simp only [wokenBlock]
    split <;> simp
  · rw [h.woken.frame]

theorem Kernel.Prepares.mild (h : k.Prepares cfg k') :
    k.Mild k' ∧ ∀ u, (k.tasks u).state.isReady = true → k'.tasks u = k.tasks u := by
  cases h with
  | create t priority hfresh =>
    have hnot : (k.tasks t).state.isReady = false := by simp [hfresh, TaskState.isReady]
    have hothers : ∀ u, u ≠ t → (k.create cfg t priority).tasks u = k.tasks u :=
      fun u hu => by simp [Kernel.create, hu]
    refine ⟨.of_one (t := t) (.of_eq rfl) hothers (Or.inl hnot) (by simp [Kernel.create, createdBlock]) rfl rfl, ?_⟩
    intro u hu
    exact hothers u (by rintro rfl; simp [hu] at hnot)
  | register t hstate hcreated =>
    have hnot : (k.tasks t).state.isReady = false := by simp [hcreated, TaskState.isReady]
    have hothers : ∀ u, u ≠ t → (k.register cfg t).tasks u = k.tasks u :=
      fun u hu => by simp [Kernel.register, hu]
    refine ⟨.of_one (t := t) (k.addReady_requeued t) hothers (Or.inl hnot) (by simp [Kernel.register]) rfl rfl, ?_⟩
    intro u hu
    exact hothers u (by rintro rfl; simp [hu] at hnot)

theorem prepares_mild (h : Relation.ReflTransGen (Kernel.Prepares cfg) k k') :
    k.Mild k' ∧ ∀ u, (k.tasks u).state.isReady = true → k'.tasks u = k.tasks u := by
  induction h with
  | refl => exact ⟨.refl k, fun _ _ => rfl⟩
  | @tail k₁ k₂ _ hstep ih =>
    obtain ⟨hmild, hsame⟩ := ih
    obtain ⟨hmild', hsame'⟩ := hstep.mild
    have hstill : ∀ u, (k.tasks u).state.isReady = true → k₂.tasks u = k.tasks u := by
      intro u hu
      rw [hsame' u (by rwa [hsame u hu]), hsame u hu]
    -- Who is not ready on the way was not ready at the beginning.
    have hback : ∀ u, (k₁.tasks u).state.isReady = false → (k.tasks u).state.isReady = false := by
      intro u hu
      by_contra hready
      rw [hsame u (Bool.eq_true_of_not_eq_false hready)] at hu
      exact hready hu
    have hback' : ∀ u, (k₂.tasks u).state.isReady = false → (k.tasks u).state.isReady = false := by
      intro u hu
      by_contra hready
      rw [hstill u (Bool.eq_true_of_not_eq_false hready)] at hu
      exact hready hu
    refine ⟨⟨?_, fun u hu _ => hstill u hu, fun u hu => hmild.running u (hmild'.running u hu),
      hmild'.current.trans hmild.current, hmild'.timeSlice.trans hmild.timeSlice⟩, hstill⟩
    refine (hmild.requeued.mono ?_).trans (hmild'.requeued.mono ?_)
    · rintro u (hu | hu)
      · exact Or.inl hu
      · exact Or.inl (hback u hu)
    · rintro u (hu | hu)
      · exact Or.inl (hback u hu)
      · exact Or.inr hu

theorem Call.Change.mild {inIsr woken : Bool} (h : c.Change cfg s inIsr k woken) (g : s.kernel.Sound cfg) :
    s.kernel.Mild k := by
  cases h with
  | prepares path => exact (prepares_mild path).1
  | yields _ hcalm => exact (Kernel.Mild.refl s.kernel).calm hcalm
  | waits t w ticks _ hcalm => exact (s.kernel.startWait_mild t w ticks).calm hcalm
  | suspends t _ _ _ hcalm => exact (s.kernel.suspend_mild t).calm hcalm
  | resumes t _ hstate hcalm => exact (Kernel.resume_mild hstate).calm hcalm
  | serves l u w k₁ _ _ hwait hgranted hcalm => exact (hgranted.mild g hwait).calm hcalm

theorem Call.Change.ready {inIsr woken : Bool} (h : c.Change cfg s inIsr k woken) (g : s.kernel.Sound cfg) {u : TaskRef}
    (hu : (s.kernel.tasks u).state = .ready) : k.tasks u = s.kernel.tasks u ∨ c = .taskSuspend (some u) := by
  have hready : (s.kernel.tasks u).state.isReady = true := by simp [hu, TaskState.isReady]
  cases h with
  | prepares path => exact Or.inl ((prepares_mild path).2 u hready)
  | yields _ hcalm => exact Or.inl (by rw [hcalm.tasks])
  | waits t w ticks hruns hcalm =>
    left
    have hut : u ≠ t := by
      rintro rfl
      simp [hruns.running] at hu
    rw [hcalm.tasks]
    simp [Kernel.startWait, hut]
  | suspends t hcall _ _ hcalm =>
    by_cases hut : u = t
    · exact Or.inr (hut ▸ hcall)
    · left
      rw [hcalm.tasks]
      simp [Kernel.suspend, hut]
  | resumes t _ hstate hcalm =>
    left
    have hut : u ≠ t := by
      rintro rfl
      simp [hstate] at hu
    rw [hcalm.tasks]
    simp [Kernel.resume, hut]
  | serves l t w k₁ _ _ hwait hgranted hcalm =>
    left
    have hut : u ≠ t := by
      rintro rfl
      simp [g.not_isReady_of_wait hwait] at hready
    rw [hcalm.tasks, hgranted.woken.others u hut, hgranted.effective u]

end

end Hairtos
