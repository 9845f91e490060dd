import Hairtos.Invariant.Lapse
import Hairtos.Invariant.Mild
import Hairtos.Library.Runs

namespace Hairtos

open Library

def Kernel.Sliced (cfg : Config) (k : Kernel) : Prop :=
  ∀ t, (k.tasks t).state.isReady = true →
    0 < (k.tasks t).timeSliceRemaining.toNat ∧ (k.tasks t).timeSliceRemaining.toNat ≤ cfg.timeSliceTicks.toNat

def Kernel.Refills (cfg : Config) (k k' : Kernel) : Prop :=
  ∀ t, (k'.tasks t).state.isReady = true → (k'.tasks t).timeSliceRemaining = cfg.timeSliceTicks ∨
    (k.tasks t).state.isReady = true ∧ (k'.tasks t).timeSliceRemaining = (k.tasks t).timeSliceRemaining

section

variable {cfg : Config} {s s' : System} {k k' k'' : Kernel} {t u c : TaskRef} {call : Call}

theorem Config.timeSliceTicks_pos (hts : cfg.timeSlicing = true) : 0 < cfg.timeSliceTicks.toNat := by
  have hne := cfg.timeSliceTicks_ne hts
  bv_omega

theorem Kernel.Sliced.refills (h : k.Sliced cfg) (hS : 0 < cfg.timeSliceTicks.toNat) (hr : k.Refills cfg k') :
    k'.Sliced cfg := by
  intro t ht
  rcases hr t ht with he | ⟨hready, he⟩
  · rw [he]
    exact ⟨hS, le_refl _⟩
  · rw [he]
    exact h t hready

theorem Kernel.Refills.trans (h : k.Refills cfg k') (h' : k'.Refills cfg k'') : k.Refills cfg k'' := by
  intro t ht
  rcases h' t ht with he | ⟨hready, he⟩
  · exact Or.inl he
  · rw [he]
    exact h t hready

theorem SamePace.refills (h : SamePace k k') : k.Refills cfg k' := by
  intro t ht
  rw [h.state] at ht
  exact Or.inr ⟨ht, h.slice t⟩

theorem Kernel.Refills.refl (k : Kernel) : k.Refills cfg k := fun _ ht => Or.inr ⟨ht, rfl⟩

theorem Kernel.Refills.of_one (t : TaskRef) (hothers : ∀ u, u ≠ t → (k'.tasks u).state = (k.tasks u).state ∧
      (k'.tasks u).timeSliceRemaining = (k.tasks u).timeSliceRemaining)
    (hself : (k'.tasks t).state.isReady = true → (k'.tasks t).timeSliceRemaining = cfg.timeSliceTicks) :
    k.Refills cfg k' := by
  intro u hu
  by_cases hut : u = t
  · subst hut
    exact Or.inl (hself hu)
  · obtain ⟨hstate, hslice⟩ := hothers u hut
    rw [hstate] at hu
    exact Or.inr ⟨hu, hslice⟩

theorem Woken.refills {result : Status} (h : Woken cfg k t result k') : k.Refills cfg k' := by
  refine .of_one t (fun u hu => ?_) (fun _ => ?_)
  · rw [h.others u hu]
    exact ⟨rfl, rfl⟩
  · rw [h.task]
    rfl

theorem Kernel.startWait_refills (k : Kernel) (t : TaskRef) (w : Wait) (ticks : Option Tick) :
    k.Refills cfg (k.startWait cfg t w ticks) := by
  refine .of_one t (fun u hu => ?_) (fun hr => ?_)
  · simp [Kernel.startWait, hu]
  · simp [Kernel.startWait, waitingBlock, TaskState.isReady] at hr

theorem Kernel.Prepares.refills (h : Relation.ReflTransGen (Kernel.Prepares cfg) k k') : k.Refills cfg k' := by
  induction h with
  | refl => exact .refl k
  | tail _ hlast ih =>
    refine ih.trans ?_
    cases hlast with
    | create t priority =>
      refine .of_one t (fun u hu => ?_) (fun hr => ?_)
      · simp [Kernel.create, hu]
      · simp [Kernel.create, createdBlock, TaskState.isReady] at hr
    | register t =>
      refine .of_one t (fun u hu => ?_) (fun _ => ?_)
      · simp [Kernel.register, hu]
      · simp [Kernel.register]

theorem Call.Change.refills {inIsr woken : Bool} (h : call.Change cfg s inIsr k woken) : s.kernel.Refills cfg k := by
  cases h with
  | prepares hpath => exact Kernel.Prepares.refills hpath
  | yields _ hcalm => exact hcalm.samePace.refills
  | waits t w ticks _ hcalm => exact (s.kernel.startWait_refills t w ticks).trans hcalm.samePace.refills
  | suspends t _ _ _ hcalm =>
    refine Kernel.Refills.trans (.of_one t (fun u hu => ?_) (fun hr => ?_)) hcalm.samePace.refills
    · simp [Kernel.suspend, hu]
    · simp [Kernel.suspend, suspendedBlock, TaskState.isReady] at hr
  | resumes t _ _ hcalm =>
    refine Kernel.Refills.trans (.of_one t (fun u hu => ?_) (fun hr => ?_)) hcalm.samePace.refills
    · simp [Kernel.resume, hu]
    · by_cases hb : (s.kernel.tasks t).suspendedResumeState = .blocked
      · simp [Kernel.resume, resumedBlock, hb, TaskState.isReady] at hr
      · simp [Kernel.resume, resumedBlock, hb]
  | serves l u w k₁ _ _ _ hgranted hcalm => exact hgranted.woken.refills.trans hcalm.samePace.refills

theorem LockEffect.refills {m : MutexRef} {timeout : Tick} {outcome : Outcome}
    (h : LockEffect cfg s m timeout s' outcome) : s.kernel.Refills cfg s'.kernel := by
  cases h with
  | acquired t => exact (s.kernel.countOwned_samePace t _).refills
  | again t => exact .refl _
  | waits t o k _ _ _ _ hreprio =>
    exact ((s.kernel.startWait_refills t _ _).trans hreprio.samePace.refills).trans
      (Kernel.calm_requestContextSwitch _).samePace.refills
  | refused t o k k' _ _ _ hreprio hwoken =>
    exact (((s.kernel.startWait_refills t _ _).trans hreprio.samePace.refills).trans hwoken.refills).trans
      (Kernel.calm_requestContextSwitch _).samePace.refills

theorem UnlockEffect.refills {m : MutexRef} (h : UnlockEffect cfg s m t s') : s.kernel.Refills cfg s'.kernel := by
  cases h with
  | again => exact .refl _
  | freed k k' _ hreprio hcalm =>
    exact (((s.kernel.countOwned_samePace t _).trans hreprio.samePace).trans hcalm.samePace).refills
  | handed u k k' k'' _ _ hwoken hreprio hcalm =>
    have hcounts := (s.kernel.countOwned_samePace t (· - 1)).trans (Kernel.countOwned_samePace _ u (· + 1))
    exact (hcounts.refills.trans hwoken.refills).trans (hreprio.samePace.trans hcalm.samePace).refills

theorem Expiry.refills {order : List TaskRef} (h : Expiry cfg s order s') : s.kernel.Refills cfg s'.kernel := by
  induction h with
  | nil => exact .refl _
  | cons w k _ _ hwoken _ _ _ _ ih => exact hwoken.refills.trans ih

theorem TimerTick.refills {woken : Bool} (h : TimerTick cfg s s' woken) : s.kernel.Refills cfg s'.kernel := by
  rcases h.kernel_cases with ⟨hkernel, -⟩ | ⟨u, -, hgranted, -⟩
  · rw [hkernel]
    exact .refl _
  · exact hgranted.woken.refills

inductive SliceTick (cfg : Config) (k : Kernel) (c : TaskRef) : Kernel → Prop
  | alone {k' : Kernel} (peer : schedulerHasEqualPriorityPeer cfg k.scheduler c = false)
      (slice : (k'.tasks c).timeSliceRemaining = cfg.timeSliceTicks) : SliceTick cfg k c k'
  | ends {k' : Kernel} (last : (k.tasks c).timeSliceRemaining.toNat ≤ 1)
      (slice : (k'.tasks c).timeSliceRemaining = cfg.timeSliceTicks)
      (timeSlice : k'.switchReasons.timeSlice = true) : SliceTick cfg k c k'
  | more {k' : Kernel} (left : 0 < (k'.tasks c).timeSliceRemaining.toNat)
      (slice : (k'.tasks c).timeSliceRemaining.toNat + 1 = (k.tasks c).timeSliceRemaining.toNat) : SliceTick cfg k c k'

theorem kernelTickTimeSlice_sliceTick (k : Kernel) (c : TaskRef) :
    SliceTick cfg k c (kernelTickTimeSlice cfg k c).1 := by
  unfold kernelTickTimeSlice
  cases hpeer : schedulerHasEqualPriorityPeer cfg k.scheduler c with
  | false =>
    refine .alone hpeer ?_
    simp [kernelReloadTimeSlice, Kernel.updateTask]
  | true =>
    simp only [↓reduceIte]
    by_cases hlast : (k.tasks c).timeSliceRemaining.toNat ≤ 1
    · have hzero : (if (k.tasks c).timeSliceRemaining = 0#32 then 0#32 else (k.tasks c).timeSliceRemaining - 1#32) =
          0#32 := by
        split_ifs
        · rfl
        · bv_omega
      simp only [Kernel.updateTask, Function.update_self, hzero, ↓reduceIte]
      exact .ends hlast (by simp [kernelReloadTimeSlice, Kernel.updateTask]) rfl
    · have hnot : (k.tasks c).timeSliceRemaining ≠ 0#32 := by bv_omega
      have hmore : (k.tasks c).timeSliceRemaining - 1#32 ≠ 0#32 := by bv_omega
      simp only [Kernel.updateTask, Function.update_self, hnot, hmore, ↓reduceIte]
      refine .more ?_ ?_
      · simp only [Function.update_self]
        bv_omega
      · simp only [Function.update_self]
        bv_omega

theorem kernelTickTimeSlice_others (k : Kernel) (ht : t ≠ c) :
    (kernelTickTimeSlice cfg k c).1.tasks t = k.tasks t := by
  unfold kernelTickTimeSlice
  dsimp only
  split_ifs <;> simp [kernelReloadTimeSlice, Kernel.updateTask, ht]

theorem kernelTickTimeSlice_runtime (k : Kernel) (c : TaskRef) :
    ((kernelTickTimeSlice cfg k c).1.tasks c).runtimeCounter = (k.tasks c).runtimeCounter := by
  unfold kernelTickTimeSlice
  dsimp only
  split_ifs <;> simp [kernelReloadTimeSlice, Kernel.updateTask]

theorem yieldFromIsr_tasks (k : Kernel) (b : Bool) : (yieldFromIsr k b).tasks = k.tasks := by cases b <;> rfl

theorem kernelTickCurrent_cases (k : Kernel) (c : TaskRef) (woken : Bool) :
    ((kernelTickCurrent cfg k c woken).1.tasks c).runtimeCounter = (k.tasks c).runtimeCounter + 1#32 ∧
      (∀ t, t ≠ c → (kernelTickCurrent cfg k c woken).1.tasks t = k.tasks t) ∧
      (SliceTick cfg k c (kernelTickCurrent cfg k c woken).1 ∨
        (cfg.timeSlicing && !(woken || cfg.preemption && schedulerShouldPreempt cfg k.scheduler c)) = false ∧
          ((kernelTickCurrent cfg k c woken).1.tasks c).timeSliceRemaining = (k.tasks c).timeSliceRemaining) := by
  unfold kernelTickCurrent
  dsimp only
  generalize hk₁ : k.updateTask c (fun cb => { cb with runtimeCounter := cb.runtimeCounter + 1#32 }) = k₁
  have hscheduler : k₁.scheduler = k.scheduler := by rw [← hk₁]; rfl
  have hself : k₁.tasks c = { k.tasks c with runtimeCounter := (k.tasks c).runtimeCounter + 1#32 } := by
    simp [← hk₁, Kernel.updateTask]
  have hothers : ∀ t, t ≠ c → k₁.tasks t = k.tasks t := fun t ht => by simp [← hk₁, Kernel.updateTask, ht]
  generalize hpreempt : (cfg.preemption && schedulerShouldPreempt cfg k₁.scheduler c) = preempt
  rw [hscheduler] at hpreempt
  rw [hpreempt]
  generalize hk₂ : (if preempt = true then { k₁ with switchReasons := { k₁.switchReasons with preempt := true } }
    else k₁) =
    k₂
  have htasks : k₂.tasks = k₁.tasks := by
    rw [← hk₂]
    split <;> rfl
  have hscheduler₂ : k₂.scheduler = k.scheduler := by
    rw [← hscheduler, ← hk₂]
    split <;> rfl
  split
  · next h =>
    refine ⟨?_, fun t ht => ?_, Or.inl ?_⟩
    · rw [kernelTickTimeSlice_runtime, htasks, hself]
    · rw [kernelTickTimeSlice_others _ ht, htasks, hothers t ht]
    · have hslice : (k₂.tasks c).timeSliceRemaining = (k.tasks c).timeSliceRemaining := by rw [htasks, hself]
      have htick : SliceTick cfg k₂ c (kernelTickTimeSlice cfg k₂ c).1 := kernelTickTimeSlice_sliceTick k₂ c
      cases htick with
      | alone hpeer hs => exact .alone (hscheduler₂ ▸ hpeer) hs
      | ends hlast hs htime => exact .ends (hslice ▸ hlast) hs htime
      | more hleft hs => exact .more hleft (hs.trans (by rw [hslice]))
  · next h =>
    refine ⟨by rw [htasks, hself], fun t ht => by rw [htasks, hothers t ht], Or.inr ⟨?_, by rw [htasks, hself]⟩⟩
    exact Bool.eq_false_iff.mpr h

theorem SliceTick.requested (h : SliceTick cfg k c k') (b : Bool) : SliceTick cfg k c (yieldFromIsr k' b) := by
  cases b with
  | false => exact h
  | true =>
    cases h with
    | alone hpeer hs => exact .alone hpeer hs
    | ends hlast hs htime => exact .ends hlast hs htime
    | more hleft hs => exact .more hleft hs

theorem kernelTickEnd_running (hrun : (k.tasks c).state = .running) (woken : Bool) :
    kernelTickEnd cfg k c woken =
      yieldFromIsr (kernelTickCurrent cfg k c woken).1 (kernelTickCurrent cfg k c woken).2 := by
  simp only [kernelTickEnd, hrun, ↓reduceIte]

theorem kernelTickEnd_others (k : Kernel) (woken : Bool) (ht : t ≠ c) :
    (kernelTickEnd cfg k c woken).tasks t = k.tasks t := by
  by_cases hrun : (k.tasks c).state = .running
  · rw [kernelTickEnd_running hrun, yieldFromIsr_tasks]
    exact (kernelTickCurrent_cases k c woken).2.1 t ht
  · simp only [kernelTickEnd, hrun, ↓reduceIte, yieldFromIsr_tasks]

theorem Kernel.Sliced.tickEnd (h : k.Sliced cfg) (hS : 0 < cfg.timeSliceTicks.toNat) (c : TaskRef) (woken : Bool) :
    (kernelTickEnd cfg k c woken).Sliced cfg := by
  intro t ht
  have hstate := (kernelTickEnd_charged cfg k c woken).bookkept.taskState t
  rw [hstate] at ht
  by_cases htc : t = c
  swap
  · rw [kernelTickEnd_others k woken htc]
    exact h t ht
  subst htc
  by_cases hrun : (k.tasks t).state = .running
  swap
  · simp only [kernelTickEnd, hrun, ↓reduceIte, yieldFromIsr_tasks]
    exact h t ht
  rw [kernelTickEnd_running hrun, yieldFromIsr_tasks]
  have hbefore := h t ht
  rcases (kernelTickCurrent_cases k t woken).2.2 with htick | ⟨-, hsame⟩
  · cases htick with
    | alone _ hs => rw [hs]; exact ⟨hS, le_refl _⟩
    | ends _ hs => rw [hs]; exact ⟨hS, le_refl _⟩
    | more hleft hs => exact ⟨hleft, by omega⟩
  · rw [hsame]
    exact hbefore

theorem Kernel.rotate_refills (k : Kernel) (c : TaskRef) : k.Refills cfg (k.rotate cfg c) := by
  intro t ht
  by_cases hreload : (k.rotates cfg c && k.switchReasons.yield) = true ∧ t = c
  · obtain ⟨hreload, rfl⟩ := hreload
    left
    simp [Kernel.rotate, hreload]
  · have hsame : (k.rotate cfg c).tasks t = k.tasks t := by
      simp only [Kernel.rotate]
      split_ifs with hyield
      · exact Function.update_of_ne (fun htc => hreload ⟨hyield, htc⟩) ..
      · rfl
    rw [hsame] at ht ⊢
    exact Or.inr ⟨ht, rfl⟩

theorem Kernel.switch_slice (k : Kernel) (c next t : TaskRef) :
    ((k.switch c next).tasks t).timeSliceRemaining = (k.tasks t).timeSliceRemaining ∧
      ((k.switch c next).tasks t).runtimeCounter = (k.tasks t).runtimeCounter := by
  simp only [Kernel.switch]
  split_ifs <;> simp

theorem Kernel.switch_refills (k : Kernel) (c next : TaskRef) (hnext : (k.tasks next).state.isReady = true) :
    k.Refills cfg (k.switch c next) := by
  intro t ht
  refine Or.inr ⟨?_, (k.switch_slice c next t).1⟩
  simp only [Kernel.switch] at ht
  split_ifs at ht with h₁ h₂
  · rwa [h₁]
  · rw [h₂.2]
    rfl
  · exact ht

theorem kernelReloadTimeSlice_refills (k : Kernel) (t : TaskRef) : k.Refills cfg (kernelReloadTimeSlice cfg k t) := by
  refine .of_one t (fun u hu => ?_) (fun _ => ?_)
  · simp [kernelReloadTimeSlice, Kernel.updateTask, hu]
  · simp [kernelReloadTimeSlice, Kernel.updateTask]

theorem TaskStep.refills (h : TaskStep cfg s s' call) : s.kernel.Refills cfg s'.kernel := by
  cases h with
  | refused _ hkernel => exact hkernel ▸ .refl _
  | changes _ _ hchange => exact hchange.refills
  | locks m timeout outcome heffect => exact heffect.refills
  | unlocks m t hruns ho heffect => exact heffect.refills

theorem step_sliced (hs : s.Steady cfg) (hS : 0 < cfg.timeSliceTicks.toNat) (h : s.kernel.Sliced cfg) (op : Op) :
    (step cfg s op).kernel.Sliced cfg := by
  have he := step_effect hs.good hs.quiet op
  generalize hstep : step cfg s op = s' at he ⊢
  cases he with
  | task call => exact h.refills hS (hstep ▸ step_task_cases hs call).refills
  | isr call honoured =>
    obtain ⟨woken, hchange⟩ := step_isr_change hs call honoured
    exact h.refills hS (hstep ▸ hchange).refills
  | service => exact h.refills hS (hstep ▸ step_service_change (c := .taskYield) hs).refills
  | tick tl order k s₃ woken c hrun =>
    have hexpired : k.Sliced cfg := h.refills hS hrun.expiry.refills
    exact (hexpired.refills hS hrun.timers.refills).tickEnd hS c _
  | pendsv c next _ _ hnext =>
    have g : ({ s.kernel with pendSvPending := false } : Kernel).Good cfg :=
      hs.good.kernel.bookkept ⟨rfl, fun _ => rfl⟩
    obtain ⟨next', hnext', hready⟩ := (g.rotate c).exists_selectHighest
    obtain rfl : next = next' := Option.some.inj (hnext.symm.trans hnext')
    exact Kernel.Sliced.refills h hS ((Kernel.rotate_refills _ c).trans (Kernel.switch_refills _ c next hready))
  | start next _ hnext =>
    obtain ⟨next', hnext', hready⟩ := hs.good.kernel.exists_selectHighest
    obtain rfl : next = next' := Option.some.inj (hnext.symm.trans hnext')
    refine h.refills hS ((kernelReloadTimeSlice_refills _ next).trans (Kernel.switch_refills _ next next ?_))
    simpa [kernelReloadTimeSlice, Kernel.updateTask] using hready
  | _ => exact h

theorem boot_sliced (hS : 0 < cfg.timeSliceTicks.toNat) : (boot cfg).kernel.Sliced cfg := by
  rw [boot_eq]
  intro t ht
  by_cases hidle : t = .idle
  · subst hidle
    simpa [Kernel.register] using hS
  · simp [Kernel.register, Kernel.bare, Kernel.create, Kernel.reset, hidle, TaskState.isReady] at ht

theorem reachable_sliced (hS : 0 < cfg.timeSliceTicks.toNat) (h : Reachable cfg s) : s.kernel.Sliced cfg := by
  obtain ⟨ops, rfl⟩ := h
  have hinvariant : (exec cfg (boot cfg) ops).Steady cfg ∧ (exec cfg (boot cfg) ops).kernel.Sliced cfg :=
    foldl_keeps (I := fun s : System => s.Steady cfg ∧ s.kernel.Sliced cfg)
      (fun s op hI => ⟨hI.1.step op, step_sliced hI.1 hS hI.2 op⟩) ⟨boot_steady cfg, boot_sliced hS⟩
  exact hinvariant.2

end

end Hairtos
